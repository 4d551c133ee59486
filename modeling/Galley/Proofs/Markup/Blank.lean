import Galley.Proofs.Markup.Cut

/-! # White space between tokens -/

namespace Galley.Markup

/-! ## White space in front of names and in them -/

theorem isSome_bracedName?_iff (cs : List Char) :
    (bracedName? cs).isSome ↔
      ∃ rest, cs.dropWhile Text.isBlank = '{' :: rest ∧
        (rest.dropWhile isNameChar).head? = some '}' := by
  simp only [bracedName?]
  split
  · rename_i rest hrest
    rw [hrest]
    split
    · rename_i after hafter
      simp [hafter]
    · rename_i hafter
      simp only [Option.isSome_none, Bool.false_eq_true, List.cons.injEq, true_and,
        exists_eq_left', false_iff]
      intro hhead
      obtain ⟨after, hafter'⟩ := List.head?_eq_some_iff.mp hhead
      exact hafter after hafter'
  · rename_i hrest
    simp only [Option.isSome_none, Bool.false_eq_true, false_iff]
    rintro ⟨rest, hrest', -⟩
    exact hrest rest hrest'

/-- What is passed over goes on through more of its kind. -/
theorem dropWhile_insert {α : Type} {p : α → Bool} {inserted : List α}
    (h : ∀ a ∈ inserted, p a = true) (front back : List α) :
    (front ++ (inserted ++ back)).dropWhile p =
      if (front.dropWhile p).isEmpty then back.dropWhile p
      else front.dropWhile p ++ (inserted ++ back) := by
  rw [List.dropWhile_append, List.dropWhile_append_of_pos h]

/-- White space in a name or before it does not decide whether the name can be read. -/
theorem isSome_bracedName?_insert {blanks : List Char} (h : ∀ c ∈ blanks, Text.isBlank c = true)
    (front back : List Char) :
    (bracedName? (front ++ (blanks ++ back))).isSome = (bracedName? (front ++ back)).isSome := by
  have hname : ∀ c ∈ blanks, isNameChar c = true := fun c hc => isNameChar_of_isBlank (h c hc)
  rw [Bool.eq_iff_iff, isSome_bracedName?_iff, isSome_bracedName?_iff, dropWhile_insert h,
    List.dropWhile_append]
  cases hfront : front.dropWhile Text.isBlank with
  | nil => rfl
  | cons brace rest =>
      simp only [List.isEmpty_cons, Bool.false_eq_true, if_false, List.cons_append,
        List.cons.injEq, and_assoc, exists_and_left, exists_eq_left']
      rw [dropWhile_insert hname, List.dropWhile_append]
      cases hrest : rest.dropWhile isNameChar with
      | nil => rfl
      | cons last after => rfl

theorem Token.isSome_read_begin (cs : List Char) :
    (Token.read ("\\begin".toList ++ cs)).isSome = (bracedName? cs).isSome := by
  simp [Token.read]

theorem Token.isSome_read_end (cs : List Char) :
    (Token.read ("\\end".toList ++ cs)).isSome = (bracedName? cs).isSome := by
  simp [Token.read]

/-- Characters that are no white space are read before the white space begins. -/
theorem exists_append_of_solid {mark front rest : List Char} {blank : Char}
    (hblank : Text.isBlank blank = true) (hmark : mark.any Text.isBlank = false)
    (h : mark <+: front ++ blank :: rest) : ∃ behind, front = mark ++ behind := by
  have hnot : blank ∉ mark := fun hmem => List.any_eq_false.mp hmark blank hmem hblank
  obtain ⟨behind, hbehind⟩ := prefix_of_prefix_append_cons hnot h
  exact ⟨behind, hbehind.symm⟩

/-- A token that can be read in a text with white space put into it could be read before. -/
theorem Token.isSome_read_of_insert {blanks front back : List Char}
    (hblanks : ∀ c ∈ blanks, Text.isBlank c = true)
    (h : (Token.read (front ++ (blanks ++ back))).isSome) :
    (Token.read (front ++ back)).isSome := by
  cases blanks with
  | nil => exact h
  | cons blank blanks =>
      have hblank := hblanks blank (by simp)
      obtain ⟨⟨token, length⟩, hread⟩ := Option.isSome_iff_exists.mp h
      obtain ⟨written, hwritten, -, hpre⟩ := Token.Written.of_read hread
      have hshort : written.any Text.isBlank = false → (Token.read (front ++ back)).isSome := by
        intro hsolid
        obtain ⟨behind, rfl⟩ := exists_append_of_solid hblank hsolid hpre
        rw [List.append_assoc, hwritten.read]
        rfl
      -- A command is complete before the white space, its name perhaps only behind it.
      have hcommand : ∀ {command : List Char}, command.any Text.isBlank = false →
          (∀ cs, (Token.read (command ++ cs)).isSome = (bracedName? cs).isSome) →
          command <+: written → (Token.read (front ++ back)).isSome := by
        intro command hsolid hname hcommand
        obtain ⟨behind, rfl⟩ := exists_append_of_solid hblank hsolid (hcommand.trans hpre)
        rw [List.append_assoc, hname] at h ⊢
        rwa [isSome_bracedName?_insert hblanks] at h
      cases hwritten with
      | lineBreak => exact hshort (by decide)
      | escaped hsign => exact hshort (by rcases hsign with rfl | rfl <;> decide)
      | bracketOpen => exact hshort (by decide)
      | bracketClose => exact hshort (by decide)
      | doubleDollar => exact hshort (by decide)
      | beginEnv _ => exact hcommand (by decide) isSome_read_begin (List.prefix_append ..)
      | endEnv _ => exact hcommand (by decide) isSome_read_end (List.prefix_append ..)

/-! ## Clean cuts at white space -/

theorem not_standsAt_blank {blanks : List Char} (h : ∀ c ∈ blanks, Text.isBlank c = true)
    (back : List Char) {position : Nat} (hlt : position < blanks.length) (length : Nat)
    (token : Token) : ¬ Grammar.StandsAt Token.Written (blanks ++ back) position length token := by
  intro hstands
  have hread := Token.read_decides.reads.mpr hstands
  have hblank := h blanks[position] (List.getElem_mem hlt)
  rw [List.drop_append_of_le_length (Nat.le_of_lt hlt), List.drop_eq_getElem_cons hlt,
    List.cons_append, Token.read_eq_none] at hread
  · cases hread
  · constructor <;> (intro hsign; rw [hsign] at hblank; revert hblank; decide)

theorem cleanCut_blanks {blanks : List Char} (h : ∀ c ∈ blanks, Text.isBlank c = true)
    (back : List Char) : CleanCut Token.read Token.Written blanks back := by
  intro position hlt length token hstands
  exact absurd hstands (not_standsAt_blank h back hlt length token)

theorem occurrences_blanks {blanks : List Char} (h : ∀ c ∈ blanks, Text.isBlank c = true) :
    occurrences Token.read blanks = [] := by
  apply occurrences_eq_nil Token.read_decides
  intro position length token hstands
  obtain ⟨hpos, hle⟩ := hstands.within Token.read_decides.ne_nil
  exact not_standsAt_blank h [] (by omega) length token (hstands.append [])

/-- A clean cut stays clean with white space behind it. -/
theorem cleanCut_insert_blanks {front back blanks : List Char}
    (h : CleanCut Token.read Token.Written front back)
    (hblanks : ∀ c ∈ blanks, Text.isBlank c = true) :
    CleanCut Token.read Token.Written front (blanks ++ back) := by
  intro position hlt length token hstands
  have hread := Token.read_decides.reads.mpr hstands
  have hsome : (Token.read (front.drop position ++ (blanks ++ back))).isSome := by
    rw [← List.drop_append_of_le_length (Nat.le_of_lt hlt), hread]
    rfl
  obtain ⟨⟨token', length'⟩, hread'⟩ :=
    Option.isSome_iff_exists.mp (Token.isSome_read_of_insert hblanks hsome)
  rw [← List.drop_append_of_le_length (Nat.le_of_lt hlt)] at hread'
  exact h position hlt length' token' (Token.read_decides.reads.mp hread')

end Galley.Markup
