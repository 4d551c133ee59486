import Galley.Proofs.Cut

/-! # Working off a text chunk by chunk -/

namespace Galley

variable {α β γ : Type}

/-- A chunk is worked off to `result`, and the work goes on afresh with whatever comes behind
it. -/
def WorksOff (work : List α → List β) (chunk : List α) (result : List β) : Prop :=
  ∀ rest, work (chunk ++ rest) = result ++ work rest

namespace WorksOff

variable {work : List α → List β}

theorem nil : WorksOff work [] [] := fun _ => rfl

theorem append {chunk chunk' : List α} {result result' : List β} (h : WorksOff work chunk result)
    (h' : WorksOff work chunk' result') : WorksOff work (chunk ++ chunk') (result ++ result') := by
  intro rest
  rw [List.append_assoc, h, h', List.append_assoc]

theorem flatMap {print : γ → List α} {result : γ → List β} {list : List γ}
    (h : ∀ c ∈ list, WorksOff work (print c) (result c)) :
    WorksOff work (list.flatMap print) (list.flatMap result) := by
  induction list with
  | nil => exact nil
  | cons c list ih =>
      have hrest := ih fun d hd => h d (List.mem_cons_of_mem c hd)
      exact (h c (by simp)).append hrest

/-- A chunk whose elements each give nothing gives nothing. -/
theorem of_forall_nil {print : γ → List α} {list : List γ}
    (h : ∀ c ∈ list, WorksOff work (print c) []) : WorksOff work (list.flatMap print) [] := by
  have hnil : list.flatMap (fun _ => ([] : List β)) = [] :=
    List.flatMap_eq_nil_iff.mpr fun _ _ => rfl
  have hall := flatMap h
  rw [hnil] at hall
  exact hall

theorem intercalate {print : γ → List α} {result : γ → List β} {separator : List α}
    {between : List β} (hseparator : WorksOff work separator between)
    (h : ∀ c, WorksOff work (print c) (result c)) (list : List γ) :
    WorksOff work (separator.intercalate (list.map print))
      (between.intercalate (list.map result)) := by
  induction list with
  | nil => exact nil
  | cons c list ih =>
      cases list with
      | nil => simpa using h c
      | cons d list => simpa [List.intercalate_cons_cons] using (h c).append (hseparator.append ih)

/-- A whole text is a chunk with nothing behind it. -/
theorem eq {chunk : List α} {result : List β} (h : WorksOff work chunk result)
    (hnil : work [] = []) : work chunk = result := by
  have hall := h []
  rw [List.append_nil, hnil, List.append_nil] at hall
  exact hall

/-! ## Reading chunk by chunk -/

section Readings

variable {read : Reader α γ}

theorem reading {chunk : List α} {value : γ} (hne : chunk ≠ [])
    (h : ∀ rest, read (chunk ++ rest) = some (value, chunk.length)) :
    WorksOff (readings read) chunk [value] :=
  fun rest => readings_append_of_some hne (h rest)

/-- Nothing that begins with a mark is read in a text that lacks the first element of the mark. -/
theorem no_reading_of_head {mark chunk : List α} {first : α} (hfirst : mark.head? = some first)
    (hchunk : first ∉ chunk) (h : ∀ list, ¬ mark <+: list → read list = none) :
    WorksOff (readings read) chunk [] := by
  have hsingle : ∀ a ∈ chunk, WorksOff (readings read) [a] [] := by
    intro a ha rest
    apply readings_cons_of_none
    apply h
    intro hmark
    obtain ⟨behind, rfl⟩ := List.head?_eq_some_iff.mp hfirst
    have heq := (List.cons_prefix_cons.mp hmark).1
    exact hchunk (heq ▸ ha)
  simpa using of_forall_nil hsingle

/-- Nothing that begins with a mark is read in a text without the mark, up to an element that
the mark does not have. -/
theorem no_reading_of_not_infix {mark text : List α} {stop : α} (hstop : stop ∉ mark)
    (htext : ¬ mark <:+: text) (h : ∀ list, ¬ mark <+: list → read list = none) :
    WorksOff (readings read) (text ++ [stop]) [] := by
  have hmarked : ∀ suffix, suffix <:+ text → ∀ rest, read (suffix ++ stop :: rest) = none := by
    intro suffix hsuffix rest
    apply h
    intro hmark
    have hbefore := prefix_of_prefix_append_cons hstop hmark
    exact htext (hbefore.isInfix.trans hsuffix.isInfix)
  intro rest
  have hstopped : read (stop :: rest) = none := hmarked [] (List.nil_suffix) rest
  rw [List.append_assoc, List.singleton_append, List.nil_append,
    readings_append_of_none fun suffix _ hsuffix => hmarked suffix hsuffix rest,
    readings_cons_of_none hstopped]

end Readings

end WorksOff

end Galley
