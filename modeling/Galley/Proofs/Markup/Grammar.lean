import Mathlib.Data.List.TakeWhile
import Galley.Markup.Event
import Galley.Proofs.Cut
import Galley.Proofs.Markup.Order

/-! # The written forms of markup tokens -/

namespace Galley

/-! ## White space at the borders -/

namespace Text

/-- A text that neither begins nor ends with white space. -/
structure Trimmed (cs : List Char) : Prop where
  head : ∀ c, cs.head? = some c → isBlank c = false
  last : ∀ c, cs.getLast? = some c → isBlank c = false

/-- Trimming takes away nothing but white space, and leaves none at the borders. -/
theorem trim_spec (cs : List Char) :
    ∃ left right, cs = left ++ trim cs ++ right ∧
      (∀ c ∈ left ++ right, isBlank c = true) ∧ Trimmed (trim cs) := by
  let inner := cs.dropWhile isBlank
  let right := (inner.reverse.takeWhile isBlank).reverse
  have hinner : inner = trim cs ++ right := by
    have hsplit := List.takeWhile_append_dropWhile (p := isBlank) (l := inner.reverse)
    have hrev := congrArg List.reverse hsplit
    rw [List.reverse_append, List.reverse_reverse] at hrev
    exact hrev.symm
  refine ⟨cs.takeWhile isBlank, right, ?_, ?_, ?_, ?_⟩
  · rw [List.append_assoc, ← hinner]
    exact List.takeWhile_append_dropWhile.symm
  · intro c hc
    rcases List.mem_append.mp hc with hc | hc
    · exact List.mem_takeWhile_imp hc
    · exact List.mem_takeWhile_imp (List.mem_reverse.mp hc)
  · intro c hc
    apply eq_false_of_mem_head?_dropWhile isBlank cs c
    change inner.head? = some c
    rw [hinner, List.head?_append, hc]
    rfl
  · intro c hc
    apply eq_false_of_mem_head?_dropWhile isBlank inner.reverse c
    rw [trim, List.getLast?_reverse] at hc
    exact hc

theorem trim_append {left middle right : List Char} (hleft : ∀ c ∈ left, isBlank c = true)
    (hright : ∀ c ∈ right, isBlank c = true) (h : Trimmed middle) :
    trim (left ++ middle ++ right) = middle := by
  cases hmiddle : middle with
  | nil =>
      have hall : (left ++ [] ++ right).dropWhile isBlank = [] := by
        rw [List.dropWhile_eq_nil_iff]
        simp only [List.append_nil, List.mem_append]
        rintro c (hc | hc)
        · exact hleft c hc
        · exact hright c hc
      rw [trim, hall]
      rfl
  | cons c cs =>
      rw [← hmiddle]
      have hhead : ∀ d, (middle ++ right).head? = some d → isBlank d = false := by
        intro d hd
        apply h.head d
        rw [hmiddle] at hd ⊢
        exact hd
      have hlast : ∀ d, middle.reverse.head? = some d → isBlank d = false := by
        intro d hd
        apply h.last d
        rw [← hd, List.head?_reverse]
      rw [trim, List.append_assoc, dropWhile_append_of_head? hleft hhead, List.reverse_append,
        dropWhile_append_of_head? (fun d hd => hright d (List.mem_reverse.mp hd)) hlast,
        List.reverse_reverse]

end Text

namespace Markup

/-! ## Names in braces -/

/-- Any amount of white space, and a name between braces. The name holds no braces itself, and
white space at its borders is no part of it. -/
def BracedName (written : List Char) (name : String) : Prop :=
  ∃ blanks left right, written = blanks ++ '{' :: (left ++ name.toList ++ right) ++ ['}'] ∧
    (∀ c ∈ blanks, Text.isBlank c = true) ∧ (∀ c ∈ left, Text.isBlank c = true) ∧
    (∀ c ∈ right, Text.isBlank c = true) ∧ (∀ c ∈ name.toList, c ≠ '{' ∧ c ≠ '}') ∧
    Text.Trimmed name.toList

theorem isNameChar_iff (c : Char) : isNameChar c = true ↔ c ≠ '{' ∧ c ≠ '}' := by
  simp [isNameChar]

theorem isNameChar_of_isBlank {c : Char} (h : Text.isBlank c = true) : isNameChar c = true := by
  rw [isNameChar_iff]
  constructor <;> (rintro rfl; revert h; decide)

/-- The name reader on a text that begins with blanks, braces and what is between them. -/
theorem bracedName?_append {blanks raw : List Char} (rest : List Char)
    (hblanks : ∀ c ∈ blanks, Text.isBlank c = true) (hraw : ∀ c ∈ raw, isNameChar c = true) :
    bracedName? (blanks ++ '{' :: (raw ++ '}' :: rest)) =
      some (String.ofList (Text.trim raw), blanks.length + raw.length + 2) := by
  have hopen : Text.isBlank '{' = false := by decide
  have hclose : isNameChar '}' = false := by decide
  simp only [bracedName?, List.dropWhile_append_of_pos hblanks,
    List.takeWhile_append_of_pos hblanks, List.dropWhile_cons, List.takeWhile_cons, hopen,
    Bool.false_eq_true, if_false, List.append_nil, List.dropWhile_append_of_pos hraw,
    List.takeWhile_append_of_pos hraw, hclose]

theorem BracedName.of_bracedName? {cs : List Char} {name : String} {length : Nat}
    (h : bracedName? cs = some (name, length)) :
    ∃ written, BracedName written name ∧ written.length = length ∧ written <+: cs := by
  simp only [bracedName?] at h
  split at h
  · rename_i rest hrest
    split at h
    · rename_i after hafter
      simp only [Option.some.injEq, Prod.mk.injEq] at h
      obtain ⟨rfl, rfl⟩ := h
      let blanks := cs.takeWhile Text.isBlank
      let raw := rest.takeWhile isNameChar
      have hcs : cs = blanks ++ '{' :: rest := by
        rw [← hrest]
        exact List.takeWhile_append_dropWhile.symm
      have hinner : rest = raw ++ '}' :: after := by
        rw [← hafter]
        exact List.takeWhile_append_dropWhile.symm
      obtain ⟨left, right, hraw, hblank, htrim⟩ := Text.trim_spec raw
      refine ⟨blanks ++ '{' :: raw ++ ['}'], ⟨blanks, left, right, ?_, ?_, ?_, ?_, ?_, ?_⟩, ?_, ?_⟩
      · rw [String.toList_ofList, ← hraw]
      · intro c hc
        exact List.mem_takeWhile_imp hc
      · intro c hc
        exact hblank c (List.mem_append_left right hc)
      · intro c hc
        exact hblank c (List.mem_append_right left hc)
      · intro c hc
        rw [String.toList_ofList] at hc
        have hmem : c ∈ raw := by
          rw [hraw]
          exact List.mem_append_left right (List.mem_append_right left hc)
        exact (isNameChar_iff c).mp (List.mem_takeWhile_imp hmem)
      · rw [String.toList_ofList]
        exact htrim
      · simp [blanks, raw]
        omega
      · refine ⟨after, ?_⟩
        rw [hcs, hinner]
        simp
    · simp at h
  · simp at h

theorem BracedName.read {written : List Char} {name : String} (h : BracedName written name)
    (rest : List Char) : bracedName? (written ++ rest) = some (name, written.length) := by
  obtain ⟨blanks, left, right, rfl, hblanks, hleft, hright, hname, htrim⟩ := h
  have hraw : ∀ c ∈ left ++ name.toList ++ right, isNameChar c = true := by
    intro c hc
    simp only [List.mem_append] at hc
    rcases hc with (hc | hc) | hc
    · exact isNameChar_of_isBlank (hleft c hc)
    · exact (isNameChar_iff c).mpr (hname c hc)
    · exact isNameChar_of_isBlank (hright c hc)
  have hread := bracedName?_append rest hblanks hraw
  rw [Text.trim_append hleft hright htrim, String.ofList_toList] at hread
  simp only [List.append_assoc, List.cons_append, List.nil_append] at hread ⊢
  rw [hread]
  simp
  omega

/-! ## Tokens -/

/-- The written forms of the tokens. -/
inductive Token.Written : Grammar Char Token where
  | lineBreak : Written ['\\', '\\'] (.mark .lineBreak)
  | escaped {sign : Char} : sign = '$' ∨ sign = '%' → Written ['\\', sign] .escaped
  | bracketOpen : Written ['\\', '['] (.mark .bracketOpen)
  | bracketClose : Written ['\\', ']'] (.mark .bracketClose)
  | beginEnv {written : List Char} {name : String} : BracedName written name →
      Written ("\\begin".toList ++ written) (.mark (.beginEnv name))
  | endEnv {written : List Char} {name : String} : BracedName written name →
      Written ("\\end".toList ++ written) (.mark (.endEnv name))
  | doubleDollar : Written ['$', '$'] (.mark .doubleDollar)

theorem Token.Written.of_read {cs : List Char} {token : Token} {length : Nat}
    (h : Token.read cs = some (token, length)) :
    ∃ written, Written written token ∧ written.length = length ∧ written <+: cs := by
  unfold Token.read at h
  split at h
  case h_1 rest =>
      cases h
      exact ⟨_, .lineBreak, rfl, rest, rfl⟩
  case h_2 rest =>
      cases h
      exact ⟨_, .escaped (.inl rfl), rfl, rest, rfl⟩
  case h_3 rest =>
      cases h
      exact ⟨_, .escaped (.inr rfl), rfl, rest, rfl⟩
  case h_4 rest =>
      cases h
      exact ⟨_, .bracketOpen, rfl, rest, rfl⟩
  case h_5 rest =>
      cases h
      exact ⟨_, .bracketClose, rfl, rest, rfl⟩
  case h_6 rest =>
      simp only [Option.map_eq_some_iff, Prod.exists, Prod.mk.injEq] at h
      obtain ⟨name, n, hname, rfl, rfl⟩ := h
      obtain ⟨written, hwritten, rfl, hpre⟩ := BracedName.of_bracedName? hname
      exact ⟨_, .beginEnv hwritten, by simp, by simpa using hpre⟩
  case h_7 rest =>
      simp only [Option.map_eq_some_iff, Prod.exists, Prod.mk.injEq] at h
      obtain ⟨name, n, hname, rfl, rfl⟩ := h
      obtain ⟨written, hwritten, rfl, hpre⟩ := BracedName.of_bracedName? hname
      exact ⟨_, .endEnv hwritten, by simp, by simpa using hpre⟩
  case h_8 rest =>
      cases h
      exact ⟨_, .doubleDollar, rfl, rest, rfl⟩
  case h_9 => cases h

theorem Token.Written.read {written : List Char} {token : Token} (h : Written written token)
    (rest : List Char) : Token.read (written ++ rest) = some (token, written.length) := by
  cases h with
  | lineBreak => rfl
  | escaped hsign => rcases hsign with rfl | rfl <;> rfl
  | bracketOpen => rfl
  | bracketClose => rfl
  | doubleDollar => rfl
  | beginEnv hname => simp [Token.read, hname.read rest]
  | endEnv hname => simp [Token.read, hname.read rest]

theorem Token.read_eq_none {c : Char} (h : c ≠ '\\' ∧ c ≠ '$') (cs : List Char) :
    Token.read (c :: cs) = none := by
  unfold Token.read
  split <;> simp_all

theorem Token.read_decides : Reader.Decides Token.read Token.Written := by
  refine ⟨?_, ?_⟩
  · rintro written token h rfl
    cases h
  · intro cs token length
    constructor
    · exact Token.Written.of_read
    · rintro ⟨written, hwritten, rfl, rest, rfl⟩
      exact hwritten.read rest

/-! ## The tokens and events of a text -/

theorem leftmost_tokens_iff (text : String) (found : List (Occurrence Token)) :
    Leftmost Token.Written text.toList 0 found ↔ found = tokens text :=
  leftmost_iff Token.read_decides text.toList found

theorem tokens_increasing (text : String) :
    (tokens text).Pairwise fun a b => a.position < b.position :=
  ((leftmost_tokens_iff text _).mpr rfl).increasing Token.read_decides.ne_nil

theorem Event.position_of_ofToken? {token : Occurrence Token} {event : Event}
    (h : Event.ofToken? token = some event) : event.position = token.position := by
  unfold Event.ofToken? at h
  split at h
  · cases h
    rfl
  · cases h

theorem events_increasing (text : String) : Increasing (events text) := by
  apply List.pairwise_filterMap.mpr
  apply (tokens_increasing text).imp
  intro s t hlt a ha b hb
  rw [Event.position_of_ofToken? ha, Event.position_of_ofToken? hb]
  exact hlt

/-- The tokens of a text are its only leftmost tokenization, and the events are the tokens
without the escaped signs, each at the position of its first character. -/
theorem events_of_leftmost_tokens (text : String) :
    (∀ found, Leftmost Token.Written text.toList 0 found ↔ found = tokens text) ∧
      (tokens text).Pairwise (fun a b => a.position < b.position) ∧
      (events text).map (fun event => (Token.mark event.mark, event.position)) =
        ((tokens text).filter (·.value ≠ .escaped)).map
          fun token => (token.value, token.position) := by
  refine ⟨leftmost_tokens_iff text, tokens_increasing text, ?_⟩
  rw [events]
  induction tokens text with
  | nil => rfl
  | cons token rest ih =>
      obtain ⟨position, length, value⟩ := token
      cases value <;> simp_all [Event.ofToken?, List.filterMap_cons]

end Markup

end Galley
