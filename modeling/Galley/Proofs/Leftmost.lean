import Galley.Scan

/-! # Leftmost readings are determined by their gaps -/

namespace Galley

variable {α β : Type}

/-! ## Leftmost choices -/

/-- Candidates chosen from left to right: their spans stand apart, and every candidate begins
inside the span of a chosen one. -/
structure LeftmostChoice (start stop : β → Nat) (Candidate : β → Prop) (chosen : List β) :
    Prop where
  apart : chosen.Pairwise fun a b => stop a ≤ start b
  candidate : ∀ a ∈ chosen, Candidate a
  covered : ∀ a, Candidate a → ∃ b ∈ chosen, start b ≤ start a ∧ start a < stop b

namespace LeftmostChoice

variable {start stop : β → Nat} {Candidate : β → Prop}

/-- The first chosen candidate begins before every other candidate. -/
theorem exists_head_le {chosen : List β} (h : LeftmostChoice start stop Candidate chosen)
    (span : ∀ a, Candidate a → start a < stop a) {a : β} (ha : Candidate a) :
    ∃ first rest, chosen = first :: rest ∧ start first ≤ start a := by
  obtain ⟨b, hb, hle, -⟩ := h.covered a ha
  cases chosen with
  | nil => simp at hb
  | cons first rest =>
      refine ⟨first, rest, rfl, ?_⟩
      rcases List.mem_cons.mp hb with rfl | hb
      · exact hle
      · have happart := List.rel_of_pairwise_cons h.apart hb
        have hspan := span first (h.candidate first (by simp))
        omega

/-- Behind the first chosen candidate the others are a choice of what is left. -/
theorem tail {first : β} {rest : List β}
    (h : LeftmostChoice start stop Candidate (first :: rest)) :
    LeftmostChoice start stop (fun a => Candidate a ∧ stop first ≤ start a) rest := by
  refine ⟨h.apart.of_cons, ?_, ?_⟩
  · intro a ha
    exact ⟨h.candidate a (List.mem_cons_of_mem first ha), List.rel_of_pairwise_cons h.apart ha⟩
  · intro a ha
    obtain ⟨hcandidate, hstop⟩ := ha
    obtain ⟨b, hb, hle, hlt⟩ := h.covered a hcandidate
    rcases List.mem_cons.mp hb with rfl | hb
    · omega
    · exact ⟨b, hb, hle, hlt⟩

/-- Candidates that are known by where they begin have one leftmost choice only. -/
theorem unique {chosen other : List β} (span : ∀ a, Candidate a → start a < stop a)
    (known : ∀ a b, Candidate a → Candidate b → start a = start b → a = b)
    (h : LeftmostChoice start stop Candidate chosen)
    (h' : LeftmostChoice start stop Candidate other) : chosen = other := by
  induction chosen generalizing Candidate other with
  | nil =>
      cases other with
      | nil => rfl
      | cons b other =>
          obtain ⟨first, rest, hnil, -⟩ := h.exists_head_le span (h'.candidate b (by simp))
          simp at hnil
  | cons a chosen ih =>
      have ha : Candidate a := h.candidate a (by simp)
      obtain ⟨b, rest, rfl, hba⟩ := h'.exists_head_le span ha
      have hb : Candidate b := h'.candidate b (by simp)
      obtain ⟨a', rest', heq, hab⟩ := h.exists_head_le span hb
      obtain ⟨rfl, rfl⟩ := List.cons.inj heq
      have hsame : a = b := known a b ha hb (by omega)
      subst hsame
      have hrest : chosen = rest :=
        ih (fun c hc => span c hc.1) (fun c d hc hd => known c d hc.1 hd.1) h.tail h'.tail
      rw [hrest]

end LeftmostChoice

/-! ## Grammars and readers -/

/-- Which lists are written forms, and of what. -/
abbrev Grammar (α β : Type) := List α → β → Prop

/-- A written form of `value` with `length` elements stands at `position`. -/
def Grammar.StandsAt (grammar : Grammar α β) (list : List α) (position length : Nat)
    (value : β) : Prop :=
  ∃ written, grammar written value ∧ written.length = length ∧ written <+: list.drop position

/-- Reads the written forms of a grammar, of which none is empty, and nothing else. -/
structure Reader.Decides (read : Reader α β) (grammar : Grammar α β) : Prop where
  ne_nil : ∀ {written value}, grammar written value → written ≠ []
  reads : ∀ {list value length},
    read list = some (value, length) ↔
      ∃ written, grammar written value ∧ written.length = length ∧ written <+: list

/-- The first position behind an occurrence. -/
def Occurrence.stop (occurrence : Occurrence β) : Nat :=
  occurrence.position + occurrence.length

def Occurrence.Covers (occurrence : Occurrence β) (position : Nat) : Prop :=
  occurrence.position ≤ position ∧ position < occurrence.stop

/-- The search comes by at a position: no occurrence that begins before it goes beyond it. -/
def Reached (found : List (Occurrence β)) (position : Nat) : Prop :=
  ∀ occurrence ∈ found, occurrence.position < position → occurrence.stop ≤ position

/-- Occurrences of a grammar's written forms in order and apart, so that none stands at a
position from `start` on that they leave uncovered. -/
structure Leftmost (grammar : Grammar α β) (list : List α) (start : Nat)
    (found : List (Occurrence β)) : Prop where
  start_le : ∀ occurrence ∈ found, start ≤ occurrence.position
  apart : found.Pairwise fun a b => a.stop ≤ b.position
  stands : ∀ occurrence ∈ found,
    grammar.StandsAt list occurrence.position occurrence.length occurrence.value
  gaps : ∀ position, start ≤ position → (∀ occurrence ∈ found, ¬ occurrence.Covers position) →
    ∀ length value, ¬ grammar.StandsAt list position length value

namespace Leftmost

variable {read : Reader α β} {grammar : Grammar α β} {list : List α} {start : Nat}
  {found : List (Occurrence β)}

theorem of_drop_eq_nil (ne_nil : ∀ {written value}, grammar written value → written ≠ [])
    (h : list.drop start = []) : Leftmost grammar list start [] := by
  refine ⟨by simp, by simp, by simp, ?_⟩
  intro position hle _ length value hstands
  obtain ⟨written, hwritten, -, hpre⟩ := hstands
  have hnil : list.drop position = [] := by
    rw [List.drop_eq_nil_iff] at h ⊢
    omega
  rw [hnil] at hpre
  exact ne_nil hwritten (List.prefix_nil.mp hpre)

/-- A position where nothing stands can be passed over. -/
theorem pass (h : Leftmost grammar list (start + 1) found)
    (nothing : ∀ length value, ¬ grammar.StandsAt list start length value) :
    Leftmost grammar list start found := by
  refine ⟨?_, h.apart, h.stands, ?_⟩
  · intro occurrence hmem
    have hle := h.start_le occurrence hmem
    omega
  · intro position hle huncovered
    by_cases heq : position = start
    · subst heq
      exact nothing
    · exact h.gaps position (by omega) huncovered

/-- What stands at the start comes first, and the search goes on behind it. -/
theorem cons {length : Nat} {value : β} (h : Leftmost grammar list (start + length) found)
    (stands : grammar.StandsAt list start length value) :
    Leftmost grammar list start (⟨start, length, value⟩ :: found) := by
  refine ⟨?_, ?_, ?_, ?_⟩
  · intro occurrence hmem
    rcases List.mem_cons.mp hmem with rfl | hmem
    · simp
    · have hle := h.start_le occurrence hmem
      omega
  · exact List.pairwise_cons.mpr ⟨fun occurrence hmem => h.start_le occurrence hmem, h.apart⟩
  · intro occurrence hmem
    rcases List.mem_cons.mp hmem with rfl | hmem
    · exact stands
    · exact h.stands occurrence hmem
  · intro position hle huncovered
    have hbehind : start + length ≤ position := by
      have hfirst := huncovered ⟨start, length, value⟩ (by simp)
      simp only [Occurrence.Covers, Occurrence.stop] at hfirst
      omega
    exact h.gaps position hbehind fun occurrence hmem =>
      huncovered occurrence (List.mem_cons_of_mem _ hmem)

/-- Each occurrence begins before the next. -/
theorem increasing (ne_nil : ∀ {written value}, grammar written value → written ≠ [])
    (h : Leftmost grammar list start found) :
    found.Pairwise fun a b => a.position < b.position := by
  apply h.apart.imp_of_mem
  intro a b ha hb hab
  obtain ⟨written, hwritten, hlength, -⟩ := h.stands a ha
  have hpos := List.length_pos_iff.mpr (ne_nil hwritten)
  simp only [Occurrence.stop] at hab
  omega

/-- Whatever stands in the list begins inside an occurrence. -/
theorem exists_covers (h : Leftmost grammar list start found) {position length : Nat} {value : β}
    (hle : start ≤ position) (stands : grammar.StandsAt list position length value) :
    ∃ occurrence ∈ found, occurrence.Covers position := by
  apply Classical.byContradiction
  intro huncovered
  refine h.gaps position hle ?_ length value stands
  intro occurrence hmem hcovers
  exact huncovered ⟨occurrence, hmem, hcovers⟩

theorem position_lt_stop (ne_nil : ∀ {written value}, grammar written value → written ≠ [])
    (h : Leftmost grammar list start found) {a : Occurrence β} (ha : a ∈ found) :
    a.position < a.stop := by
  obtain ⟨written, hwritten, hlength, -⟩ := h.stands a ha
  have hpos := List.length_pos_iff.mpr (ne_nil hwritten)
  simp only [Occurrence.stop]
  omega

/-- No position is covered twice. -/
theorem eq_of_covers (h : Leftmost grammar list start found) {a b : Occurrence β} {position : Nat}
    (ha : a ∈ found) (hb : b ∈ found) (hcoversA : a.Covers position)
    (hcoversB : b.Covers position) : a = b := by
  obtain ⟨i, hi, rfl⟩ := List.getElem_of_mem ha
  obtain ⟨j, hj, rfl⟩ := List.getElem_of_mem hb
  obtain ⟨hstartA, hstopA⟩ := hcoversA
  obtain ⟨hstartB, hstopB⟩ := hcoversB
  have hapart := List.pairwise_iff_getElem.mp h.apart
  rcases Nat.lt_trichotomy i j with hij | rfl | hji
  · have hle := hapart i j hi hj hij
    omega
  · rfl
  · have hle := hapart j i hj hi hji
    omega

/-- What stands at a position that the search comes by is found there. -/
theorem mem_of_reached (decides : read.Decides grammar) (h : Leftmost grammar list start found)
    {position length : Nat} {value : β} (hle : start ≤ position)
    (hreached : Reached found position) (stands : grammar.StandsAt list position length value) :
    ⟨position, length, value⟩ ∈ found := by
  obtain ⟨⟨first, n, b⟩, hmem, hfirst, hstop⟩ := h.exists_covers hle stands
  have hbehind := hreached _ hmem
  have hsame : first = position := by
    simp only at hfirst hbehind
    omega
  subst hsame
  have hread := decides.reads.mpr stands
  rw [decides.reads.mpr (h.stands _ hmem)] at hread
  obtain ⟨rfl, rfl⟩ := Prod.mk.inj (Option.some.inj hread)
  exact hmem

/-- The search goes on right behind an occurrence. -/
theorem reached_stop (ne_nil : ∀ {written value}, grammar written value → written ≠ [])
    (h : Leftmost grammar list start found) {a : Occurrence β} (ha : a ∈ found) :
    Reached found a.stop := by
  intro b hb hlt
  apply Nat.le_of_not_lt
  intro hstop
  have hpos := h.position_lt_stop ne_nil ha
  have hcoversA : a.Covers (a.stop - 1) := ⟨by omega, by omega⟩
  have hcoversB : b.Covers (a.stop - 1) := ⟨by omega, by omega⟩
  have hsame := h.eq_of_covers ha hb hcoversA hcoversB
  rw [hsame] at hstop
  omega

/-- A decided grammar has one sequence of leftmost occurrences only. -/
theorem unique {other : List (Occurrence β)} (decides : read.Decides grammar)
    (h : Leftmost grammar list start found) (h' : Leftmost grammar list start other) :
    found = other := by
  let Candidate (a : Occurrence β) : Prop :=
    start ≤ a.position ∧ grammar.StandsAt list a.position a.length a.value
  have choice : ∀ {occs}, Leftmost grammar list start occs →
      LeftmostChoice Occurrence.position Occurrence.stop Candidate occs := by
    intro occs hoccs
    refine ⟨hoccs.apart, fun a ha => ⟨hoccs.start_le a ha, hoccs.stands a ha⟩, ?_⟩
    intro a ha
    exact hoccs.exists_covers ha.1 ha.2
  refine LeftmostChoice.unique ?_ ?_ (choice h) (choice h')
  · intro a ha
    obtain ⟨-, written, hwritten, hlength, -⟩ := ha
    have hpos := List.length_pos_iff.mpr (decides.ne_nil hwritten)
    simp only [Occurrence.stop]
    omega
  · intro a b ha hb heq
    have hreadA := decides.reads.mpr ha.2
    have hreadB := decides.reads.mpr hb.2
    rw [heq, hreadB] at hreadA
    obtain ⟨hvalue, hlength⟩ := Prod.mk.inj (Option.some.inj hreadA)
    cases a
    cases b
    simp_all

end Leftmost

/-! ## The occurrences that a reader finds -/

theorem eq_drop_succ {list rest : List α} {a : α} {position : Nat}
    (h : a :: rest = list.drop position) : rest = list.drop (position + 1) := by
  rw [← List.drop_drop, ← h, List.drop_one, List.tail_cons]

theorem occurrencesFrom_leftmost {read : Reader α β} {grammar : Grammar α β}
    (decides : read.Decides grammar) (list : List α) (position covered : Nat) (rest : List α)
    (hrest : rest = list.drop position) :
    Leftmost grammar list (position + covered) (occurrencesFrom read position covered rest) := by
  fun_induction occurrencesFrom read position covered rest with
  | case1 position covered =>
      apply Leftmost.of_drop_eq_nil decides.ne_nil
      rw [← List.drop_drop, ← hrest, List.drop_nil]
  | case2 position covered a rest ih =>
      rw [show position + (covered + 1) = position + 1 + covered by omega]
      exact ih (eq_drop_succ hrest)
  | case3 position a rest hread ih =>
      apply (ih (eq_drop_succ hrest)).pass
      intro length value hstands
      rw [Grammar.StandsAt, ← hrest, ← decides.reads, hread] at hstands
      simp at hstands
  | case4 position a rest value length hread ih =>
      have hstands : grammar.StandsAt list position length value := by
        rw [Grammar.StandsAt, ← hrest]
        exact decides.reads.mp hread
      have hpos : 0 < length := by
        obtain ⟨written, hwritten, rfl, -⟩ := hstands
        exact List.length_pos_iff.mpr (decides.ne_nil hwritten)
      have hbehind := ih (eq_drop_succ hrest)
      rw [show position + 1 + (length - 1) = position + length by omega] at hbehind
      exact hbehind.cons hstands

/-- A reader finds the leftmost occurrences of the grammar that it decides. -/
theorem leftmost_iff {read : Reader α β} {grammar : Grammar α β} (decides : read.Decides grammar)
    (list : List α) (found : List (Occurrence β)) :
    Leftmost grammar list 0 found ↔ found = occurrences read list := by
  have hfound : Leftmost grammar list 0 (occurrences read list) :=
    occurrencesFrom_leftmost decides list 0 0 list rfl
  constructor
  · intro h
    exact h.unique decides hfound
  · intro h
    rw [h]
    exact hfound

theorem leftmost_occurrences {read : Reader α β} {grammar : Grammar α β}
    (decides : read.Decides grammar) (list : List α) :
    Leftmost grammar list 0 (occurrences read list) :=
  (leftmost_iff decides list _).mpr rfl

/-! ## The readings of a list -/

/-- What is read does not depend on where the list begins. -/
theorem map_value_occurrencesFrom (read : Reader α β) (position covered : Nat) (list : List α) :
    (occurrencesFrom read position covered list).map (·.value) =
      readings read (list.drop covered) := by
  simp only [readings, occurrences]
  induction list generalizing position covered with
  | nil => simp [occurrencesFrom]
  | cons a list ih =>
      cases covered with
      | succ covered => simpa [occurrencesFrom] using ih (position + 1) covered
      | zero =>
          simp only [List.drop_zero, occurrencesFrom]
          cases read (a :: list) with
          | none => simp [ih (position + 1) 0, ih 1 0]
          | some found =>
              obtain ⟨value, length⟩ := found
              simp [ih (position + 1) (length - 1), ih 1 (length - 1)]

theorem readings_cons_of_none {read : Reader α β} {a : α} {list : List α}
    (h : read (a :: list) = none) : readings read (a :: list) = readings read list := by
  have hrest := map_value_occurrencesFrom read 1 0 list
  simp only [List.drop_zero] at hrest
  rw [← hrest]
  simp [readings, occurrences, occurrencesFrom, h]

/-- A part within which nothing begins that can be read adds no reading. -/
theorem readings_append_of_none {read : Reader α β} {front list : List α}
    (h : ∀ suffix, suffix ≠ [] → suffix <:+ front → read (suffix ++ list) = none) :
    readings read (front ++ list) = readings read list := by
  induction front with
  | nil => rfl
  | cons a front ih =>
      have hfirst : read (a :: (front ++ list)) = none :=
        h (a :: front) (List.cons_ne_nil a front) (List.suffix_refl _)
      rw [List.cons_append, readings_cons_of_none hfirst]
      exact ih fun suffix hne hsuffix => h suffix hne (hsuffix.trans (List.suffix_cons a front))

theorem readings_append_of_some {read : Reader α β} {front list : List α} {value : β}
    (hne : front ≠ []) (h : read (front ++ list) = some (value, front.length)) :
    readings read (front ++ list) = value :: readings read list := by
  cases front with
  | nil => exact absurd rfl hne
  | cons a front =>
      have hrest := map_value_occurrencesFrom read 1 front.length (front ++ list)
      rw [List.drop_left] at hrest
      rw [List.cons_append] at h
      rw [← hrest, List.cons_append]
      simp [readings, occurrences, occurrencesFrom, h]

theorem occurrencesFrom_map {α α' β β' : Type} {read : Reader α β} {read' : Reader α' β'}
    {f : α → α'} {g : β → β'}
    (h : ∀ list, read' (list.map f) = (read list).map fun (value, length) => (g value, length))
    (position covered : Nat) (list : List α) :
    occurrencesFrom read' position covered (list.map f) =
      (occurrencesFrom read position covered list).map
        fun occurrence => ⟨occurrence.position, occurrence.length, g occurrence.value⟩ := by
  fun_induction occurrencesFrom read position covered list with
  | case1 position covered => simp [occurrencesFrom]
  | case2 position covered a rest ih => simpa [occurrencesFrom] using ih
  | case3 position a rest hread ih =>
      have hread' := h (a :: rest)
      rw [List.map_cons, hread] at hread'
      simpa [occurrencesFrom, hread'] using ih
  | case4 position a rest value length hread ih =>
      have hread' := h (a :: rest)
      rw [List.map_cons, hread] at hread'
      simpa [occurrencesFrom, hread'] using ih

/-- Elements that are read alike give the same readings. -/
theorem readings_map {α α' β β' : Type} {read : Reader α β} {read' : Reader α' β'}
    {f : α → α'} {g : β → β'}
    (h : ∀ list, read' (list.map f) = (read list).map fun (value, length) => (g value, length))
    (list : List α) : readings read' (list.map f) = (readings read list).map g := by
  rw [readings, occurrences, occurrencesFrom_map h, List.map_map, readings, occurrences,
    List.map_map]
  rfl

end Galley
