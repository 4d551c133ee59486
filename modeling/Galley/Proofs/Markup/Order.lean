import Galley.Markup.Event

/-! # Events in order -/

namespace Galley.Markup

/-- Each event stands before the next. -/
def Increasing (events : List Event) : Prop :=
  events.Pairwise fun a b => a.position < b.position

namespace Increasing

theorem lt_iff {events : List Event} (h : Increasing events) {i j : Nat} {a b : Event}
    (ha : events[i]? = some a) (hb : events[j]? = some b) : a.position < b.position ↔ i < j := by
  obtain ⟨hi, rfl⟩ := List.getElem?_eq_some_iff.mp ha
  obtain ⟨hj, rfl⟩ := List.getElem?_eq_some_iff.mp hb
  have hlt := List.pairwise_iff_getElem.mp h
  constructor
  · intro hpos
    apply Nat.lt_of_not_le
    intro hle
    rcases Nat.eq_or_lt_of_le hle with rfl | hji
    · omega
    · have hpos' := hlt j i hj hi hji
      omega
  · exact hlt i j hi hj

theorem eq_of_position_eq {events : List Event} (h : Increasing events) {a b : Event}
    (ha : a ∈ events) (hb : b ∈ events) (heq : a.position = b.position) : a = b := by
  obtain ⟨i, hi⟩ := List.mem_iff_getElem?.mp ha
  obtain ⟨j, hj⟩ := List.mem_iff_getElem?.mp hb
  have hij := h.lt_iff hi hj
  have hji := h.lt_iff hj hi
  have hsame : i = j := by omega
  subst hsame
  exact Option.some.inj (hi.symm.trans hj)

end Increasing

end Galley.Markup
