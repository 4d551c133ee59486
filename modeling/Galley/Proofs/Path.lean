import Mathlib
import Galley.Path

/-! # The names of a written path -/

namespace Galley.Path

/-! ## The last name and its folder -/

/-- The path of a name in a folder. -/
def child (folder : Path) (name : List Char) : Path :=
  { folder with names := folder.names ++ [name] }

@[simp]
theorem parent_child (folder : Path) (name : List Char) : (folder.child name).parent = folder := by
  simp [child, parent]

@[simp]
theorem child_inj {folder : Path} {name other : List Char} :
    folder.child name = folder.child other ↔ name = other := by
  simp [child]

@[simp]
theorem addExtension?_child (folder : Path) (name : List Char) (extension : String) :
    (folder.child name).addExtension? extension =
      some (folder.child (name ++ extension.toList)) := by
  simp [child, addExtension?]

theorem withoutExtension_child (folder : Path) (name : List Char) :
    (folder.child name).withoutExtension = folder.child ((stem? name).getD name) := by
  simp only [child, withoutExtension, List.getLast?_concat, Option.bind_some]
  cases stem? name with
  | none => rfl
  | some stem => simp

/-- What stands behind the last slash, or all of it if there is no slash. -/
def lastComponent (cs : List Char) : List Char :=
  (cs.splitOn '/').getLast?.getD []

theorem exists_last_of_mem {c : Char} {cs : List Char} (h : c ∈ cs) :
    ∃ before after, cs = before ++ c :: after ∧ c ∉ after := by
  obtain ⟨after, before, hcs, hafter⟩ := List.eq_append_cons_of_mem (List.mem_reverse.2 h)
  refine ⟨before.reverse, after.reverse, ?_, by simpa using hafter⟩
  rw [← List.reverse_reverse cs, hcs]
  simp

theorem splitOn_append_cons (before after : List Char) (h : '/' ∉ after) :
    (before ++ '/' :: after).splitOn '/' = before.splitOn '/' ++ [after] := by
  rw [List.splitOn_eq_splitOnP, List.splitOnP_append_cons _ _ rfl, ← List.splitOn_eq_splitOnP,
    ← List.splitOn_eq_splitOnP, List.splitOn_eq_singleton h]

/-- The last component can be exchanged, and the components before it stay. -/
theorem exists_front (cs : List Char) :
    ∃ front components, cs = front ++ lastComponent cs ∧ '/' ∉ lastComponent cs ∧
      ∀ name, '/' ∉ name → (front ++ name).splitOn '/' = components ++ [name] := by
  by_cases h : '/' ∈ cs
  · obtain ⟨before, after, rfl, hafter⟩ := exists_last_of_mem h
    have hlast : lastComponent (before ++ '/' :: after) = after := by
      simp [lastComponent, splitOn_append_cons before after hafter]
    refine ⟨before ++ ['/'], before.splitOn '/', by simp [hlast], by rwa [hlast], ?_⟩
    intro name hname
    rw [List.append_assoc, List.singleton_append, splitOn_append_cons before name hname]
  · have hlast : lastComponent cs = cs := by simp [lastComponent, List.splitOn_eq_singleton h]
    refine ⟨[], [], by simp [hlast], by rwa [hlast], ?_⟩
    intro name hname
    simp [List.splitOn_eq_singleton hname]

theorem takeWhile_slash_append (front : List Char) {name : List Char} (hname : name ≠ [])
    (hslash : '/' ∉ name) :
    (front ++ name).takeWhile (· == '/') = front.takeWhile (· == '/') := by
  induction front with
  | nil =>
      cases name with
      | nil => exact absurd rfl hname
      | cons c cs =>
          have hc : c ≠ '/' := fun hc => hslash (by simp [hc])
          simp [hc]
  | cons c front ih => simp only [List.cons_append, List.takeWhile_cons, ih]

/-- Every name at the end of a written path is a name in one folder, except for the names that say
nothing. -/
theorem exists_folder (cs : List Char) :
    ∃ (front : List Char) (folder : Path), cs = front ++ lastComponent cs ∧
      '/' ∉ lastComponent cs ∧
      ∀ name, '/' ∉ name → name ≠ [] → name ≠ ['.'] →
        ofChars (front ++ name) = folder.child name := by
  obtain ⟨front, components, hcs, hlast, hsplit⟩ := exists_front cs
  refine ⟨front, ⟨.ofSlashes (front.takeWhile (· == '/')).length,
    components.filter fun name => !name.isEmpty && name != ['.']⟩, hcs, hlast, ?_⟩
  intro name hslash hname hdot
  rw [ofChars, takeWhile_slash_append front hname hslash, hsplit name hslash]
  simp [child, hname, hdot]

/-! ## Stems and extensions -/

/-- A name without a dot, or whose last dot is its first or its last character. -/
inductive Suffixless : List Char → Prop where
  | noDot {name : List Char} : '.' ∉ name → Suffixless name
  | leading {after : List Char} : '.' ∉ after → Suffixless ('.' :: after)
  | trailing (before : List Char) : Suffixless (before ++ ['.'])

/-- A name is a stem, its last dot and an extension, and none of them is empty. -/
structure SplitsAtDot (name stem extension : List Char) : Prop where
  name_eq : name = stem ++ '.' :: extension
  stem_ne : stem ≠ []
  extension_ne : extension ≠ []
  noDot : '.' ∉ extension

theorem suffixless_or_splitsAtDot (name : List Char) :
    Suffixless name ∨ ∃ stem extension, SplitsAtDot name stem extension := by
  by_cases hdot : '.' ∈ name
  · obtain ⟨before, after, rfl, hafter⟩ := exists_last_of_mem hdot
    by_cases hbefore : before = []
    · subst hbefore
      exact .inl (.leading hafter)
    · by_cases hend : after = []
      · subst hend
        exact .inl (.trailing before)
      · exact .inr ⟨before, after, rfl, hbefore, hend, hafter⟩
  · exact .inl (.noDot hdot)

theorem stem?_append_cons (before : List Char) {after : List Char} (h : '.' ∉ after) :
    stem? (before ++ '.' :: after) =
      if before = [] ∨ after = [] then none else some before := by
  have hall : ∀ c ∈ after.reverse, (c != '.') = true := by
    intro c hc
    have hne : c ≠ '.' := fun hdot => h (hdot ▸ List.mem_reverse.1 hc)
    simpa using hne
  have hrun : (before ++ '.' :: after).reverse.takeWhile (· != '.') = after.reverse := by
    rw [List.reverse_append, List.reverse_cons, List.append_assoc,
      List.takeWhile_append_of_pos hall]
    simp
  have hlength : (before ++ '.' :: after).length - after.reverse.length - 1 = before.length := by
    simp only [List.length_append, List.length_cons, List.length_reverse]
    omega
  simp only [stem?, hrun, hlength, List.take_left]
  by_cases hbefore : before = [] <;> by_cases hafter : after = [] <;> simp [hbefore, hafter]

theorem SplitsAtDot.stem?_eq {name stem extension : List Char}
    (h : SplitsAtDot name stem extension) : stem? name = some stem := by
  rw [h.name_eq, stem?_append_cons stem h.noDot, if_neg (not_or.2 ⟨h.stem_ne, h.extension_ne⟩)]

theorem Suffixless.stem?_eq {name : List Char} (h : Suffixless name) : stem? name = none := by
  cases h with
  | noDot hdot => simp [stem?, hdot]
  | leading hafter =>
      have hstem := stem?_append_cons [] hafter
      rwa [if_pos (.inl rfl)] at hstem
  | trailing before =>
      have hstem := stem?_append_cons before (List.not_mem_nil (a := '.'))
      rwa [if_pos (.inr rfl)] at hstem

theorem SplitsAtDot.withoutExtension_child {name stem extension : List Char}
    (h : SplitsAtDot name stem extension) (folder : Path) :
    (folder.child name).withoutExtension = folder.child stem := by
  rw [Path.withoutExtension_child, h.stem?_eq, Option.getD_some]

theorem withoutExtension_child_eq_iff {folder : Path} {name : List Char} :
    (folder.child name).withoutExtension = folder.child name ↔ Suffixless name := by
  refine ⟨?_, ?_⟩
  · intro h
    rcases suffixless_or_splitsAtDot name with hless | ⟨stem, extension, hsplit⟩
    · exact hless
    · rw [hsplit.withoutExtension_child, child_inj, hsplit.name_eq] at h
      simp at h
  · intro h
    rw [withoutExtension_child, h.stem?_eq, Option.getD_none]

end Galley.Path
