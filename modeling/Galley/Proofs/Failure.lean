import Galley.Failure

/-! # Which failures a stage can end in -/

namespace Galley

variable {ε ε' α β : Type}

/-- Whenever a stage fails, its failure is one of `P`. -/
def FailsWith (P : ε → Prop) (stage : Except ε α) : Prop :=
  ∀ failure, stage = .error failure → P failure

namespace FailsWith

variable {P : ε → Prop}

theorem ok (a : α) : FailsWith P (.ok a) := by
  intro failure h
  cases h

theorem error {failure : ε} (h : P failure) : FailsWith P (.error failure : Except ε α) := by
  intro other hother
  rw [← Except.error.inj hother]
  exact h

theorem bind {stage : Except ε α} {next : α → Except ε β} (h : FailsWith P stage)
    (hnext : ∀ a, FailsWith P (next a)) : FailsWith P (stage >>= next) := by
  cases stage with
  | error failure => exact error (h failure rfl)
  | ok a => exact hnext a

theorem map {stage : Except ε α} {f : α → β} (h : FailsWith P stage) :
    FailsWith P (stage.map f) := by
  cases stage with
  | error failure => exact error (h failure rfl)
  | ok a => exact ok (f a)

theorem mapError {stage : Except ε' α} {f : ε' → ε} (h : ∀ failure, P (f failure)) :
    FailsWith P (stage.mapError f) := by
  cases stage with
  | error failure => exact error (h failure)
  | ok a => exact ok a

theorem mapM {stage : α → Except ε β} (h : ∀ a, FailsWith P (stage a)) (list : List α) :
    FailsWith P (list.mapM stage) := by
  induction list with
  | nil => exact ok []
  | cons a list ih =>
      rw [List.mapM_cons]
      exact (h a).bind fun b => ih.bind fun bs => ok (b :: bs)

end FailsWith

theorem exists_of_bind_eq_ok {stage : Except ε α} {next : α → Except ε β} {b : β}
    (h : stage >>= next = .ok b) : ∃ a, stage = .ok a ∧ next a = .ok b := by
  cases stage with
  | error failure => cases h
  | ok a => exact ⟨a, rfl, h⟩

theorem of_mapError_eq_ok {stage : Except ε' α} {f : ε' → ε} {a : α}
    (h : stage.mapError f = .ok a) : stage = .ok a := by
  cases stage with
  | error failure => cases h
  | ok b => exact congrArg _ (Except.ok.inj h)

theorem bind_eq_error_iff {stage : Except ε α} {next : α → Except ε β} {failure : ε} :
    stage.bind next = .error failure ↔
      stage = .error failure ∨ ∃ a, stage = .ok a ∧ next a = .error failure := by
  cases stage <;> simp [Except.bind]

/-- Stages that are run in order fail where the first of them does. -/
theorem mapM_eq_error_iff {stage : α → Except ε β} {list : List α} {failure : ε} :
    list.mapM stage = .error failure ↔ ∃ before a after, list = before ++ a :: after ∧
      (∀ b ∈ before, ∃ result, stage b = .ok result) ∧ stage a = .error failure := by
  induction list with
  | nil =>
      constructor
      · intro h
        cases h
      · rintro ⟨before, a, after, hsplit, -⟩
        simp at hsplit
  | cons first list ih =>
      rw [List.mapM_cons]
      cases hfirst : stage first with
      | error cause =>
          constructor
          · intro h
            obtain rfl : cause = failure := Except.error.inj h
            exact ⟨[], first, list, rfl, by simp, hfirst⟩
          · rintro ⟨before, a, after, hsplit, hbefore, ha⟩
            cases before with
            | nil =>
                obtain ⟨rfl, -⟩ := List.cons.inj hsplit
                rw [Except.error.inj (hfirst.symm.trans ha)]
                rfl
            | cons b before =>
                obtain ⟨rfl, -⟩ := List.cons.inj hsplit
                obtain ⟨result, hresult⟩ := hbefore first List.mem_cons_self
                cases hfirst.symm.trans hresult
      | ok result =>
          have hrest : (Except.ok result >>= fun r => list.mapM stage >>= fun rs =>
              (pure (r :: rs) : Except ε (List β))) = .error failure ↔
                list.mapM stage = .error failure := by
            cases list.mapM stage <;> simp [bind, Except.bind, pure, Except.pure]
          rw [hrest, ih]
          constructor
          · rintro ⟨before, a, after, rfl, hbefore, ha⟩
            refine ⟨first :: before, a, after, rfl, ?_, ha⟩
            intro b hb
            rcases List.mem_cons.mp hb with rfl | hb
            · exact ⟨result, hfirst⟩
            · exact hbefore b hb
          · rintro ⟨before, a, after, hsplit, hbefore, ha⟩
            cases before with
            | nil =>
                obtain ⟨rfl, -⟩ := List.cons.inj hsplit
                cases hfirst.symm.trans ha
            | cons b before =>
                obtain ⟨rfl, rfl⟩ := List.cons.inj hsplit
                exact ⟨before, a, after, rfl,
                  fun other hother => hbefore other (List.mem_cons_of_mem _ hother), ha⟩

theorem mapM_congr {stage stage' : α → Except ε β} {list : List α}
    (h : ∀ a ∈ list, stage a = stage' a) : list.mapM stage = list.mapM stage' := by
  induction list with
  | nil => rfl
  | cons a list ih =>
      rw [List.mapM_cons, List.mapM_cons, h a List.mem_cons_self,
        ih fun b hb => h b (List.mem_cons_of_mem a hb)]

/-- Where the failures of the stages are known, the first of them is the failure of the run. -/
theorem mapM_eq_error_iff_findSome? {stage : α → Except ε β} {fault? : α → Option ε}
    {list : List α} {failure : ε}
    (h : ∀ a ∈ list, ∀ cause, stage a = .error cause ↔ fault? a = some cause) :
    list.mapM stage = .error failure ↔ list.findSome? fault? = some failure := by
  have hok : ∀ a ∈ list, (∃ result, stage a = .ok result) ↔ fault? a = none := by
    intro a ha
    rw [Option.eq_none_iff_forall_ne_some]
    cases hstage : stage a with
    | ok result => simp [← h a ha, hstage]
    | error cause => simp [(h a ha cause).mp hstage]
  rw [mapM_eq_error_iff, List.findSome?_eq_some_iff]
  constructor
  · rintro ⟨before, a, after, rfl, hbefore, ha⟩
    exact ⟨before, a, after, rfl, (h a (by simp) failure).mp ha,
      fun b hb => (hok b (by simp [hb])).mp (hbefore b hb)⟩
  · rintro ⟨before, a, after, rfl, ha, hbefore⟩
    exact ⟨before, a, after, rfl, fun b hb => (hok b (by simp [hb])).mpr (hbefore b hb),
      (h a (by simp) failure).mpr ha⟩

theorem exists_mapM_eq_ok {stage : α → Except ε β} {list : List α}
    (h : ∀ a ∈ list, ∃ result, stage a = .ok result) :
    ∃ results, list.mapM stage = .ok results := by
  cases hlist : list.mapM stage with
  | ok results => exact ⟨results, rfl⟩
  | error failure =>
      obtain ⟨before, a, after, rfl, -, ha⟩ := mapM_eq_error_iff.mp hlist
      obtain ⟨result, hresult⟩ := h a (by simp)
      cases ha.symm.trans hresult

theorem exists_of_mapM_cons_eq_ok {stage : α → Except ε β} {first : α} {list : List α}
    {results : List β} (h : (first :: list).mapM stage = .ok results) :
    ∃ result others, stage first = .ok result ∧ list.mapM stage = .ok others ∧
      results = result :: others := by
  rw [List.mapM_cons] at h
  obtain ⟨result, hfirst, hrest⟩ := exists_of_bind_eq_ok h
  obtain ⟨others, hothers, hresults⟩ := exists_of_bind_eq_ok hrest
  exact ⟨result, others, hfirst, hothers, (Except.ok.inj hresults).symm⟩

theorem length_of_mapM_eq_ok {stage : α → Except ε β} {list : List α} {results : List β}
    (h : list.mapM stage = .ok results) : results.length = list.length := by
  induction list generalizing results with
  | nil =>
      cases h
      rfl
  | cons first list ih =>
      obtain ⟨result, others, -, hothers, rfl⟩ := exists_of_mapM_cons_eq_ok h
      rw [List.length_cons, ih hothers, List.length_cons]

/-- Stages that are run in order leave their results in that order. -/
theorem getElem?_of_mapM_eq_ok {stage : α → Except ε β} {list : List α} {results : List β}
    (h : list.mapM stage = .ok results) {i : Nat} {b : β} (hb : results[i]? = some b) :
    ∃ a, list[i]? = some a ∧ stage a = .ok b := by
  induction list generalizing results i with
  | nil =>
      cases h
      simp at hb
  | cons first list ih =>
      obtain ⟨result, others, hfirst, hothers, rfl⟩ := exists_of_mapM_cons_eq_ok h
      cases i with
      | zero => exact ⟨first, rfl, hfirst.trans (congrArg Except.ok (Option.some.inj hb))⟩
      | succ i => exact ih hothers hb

theorem forall_of_mapM_eq_ok {P : β → Prop} {stage : α → Except ε β} {list : List α}
    {results : List β} (h : list.mapM stage = .ok results)
    (hP : ∀ a ∈ list, ∀ b, stage a = .ok b → P b) : ∀ b ∈ results, P b := by
  intro b hb
  obtain ⟨i, hi⟩ := List.mem_iff_getElem?.mp hb
  obtain ⟨a, ha, hresult⟩ := getElem?_of_mapM_eq_ok h hi
  exact hP a (List.mem_of_getElem? ha) b hresult

/-- The index at which stages that are run in order fail is that of the first failure. -/
theorem mapM_eq_error_iff_getElem? {stage : α → Except ε β} {list : List α} {failure : ε} :
    list.mapM stage = .error failure ↔ ∃ (i : Nat) (a : α),
      list[i]? = some a ∧ stage a = .error failure ∧
        ∀ j < i, ∃ b result, list[j]? = some b ∧ stage b = .ok result := by
  rw [mapM_eq_error_iff]
  constructor
  · rintro ⟨before, a, after, rfl, hbefore, ha⟩
    refine ⟨before.length, a, by simp, ha, ?_⟩
    intro j hj
    obtain ⟨result, hresult⟩ := hbefore before[j] (List.getElem_mem hj)
    refine ⟨before[j], result, ?_, hresult⟩
    rw [List.getElem?_append_left hj, List.getElem?_eq_getElem hj]
  · rintro ⟨i, a, hi, ha, hbefore⟩
    obtain ⟨hlt, rfl⟩ := List.getElem?_eq_some_iff.mp hi
    refine ⟨list.take i, list[i], list.drop (i + 1), ?_, ?_, ha⟩
    · rw [← List.drop_eq_getElem_cons hlt, List.take_append_drop]
    · intro b hb
      obtain ⟨j, hj, rfl⟩ := List.mem_take_iff_getElem.mp hb
      obtain ⟨other, result, hother, hresult⟩ := hbefore j (by omega)
      rw [List.getElem?_eq_getElem (by omega)] at hother
      exact ⟨result, by rwa [Option.some.inj hother]⟩

/-- The failures of parts that have been read: they do not fit together, or a number in them cannot
be worked with. -/
def Failure.OfContent : Failure → Prop
  | .mismatch _ | .fault _ => True
  | .notice _ | .unavailable _ => False

/-- The failures that end a run in error. -/
def Failure.Fatal : Failure → Prop
  | .unavailable _ | .mismatch _ => True
  | .notice _ | .fault _ => False

end Galley
