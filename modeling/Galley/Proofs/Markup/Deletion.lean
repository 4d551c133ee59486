import Galley.Proofs.Markup.Region

/-! # Events that no region needs -/

namespace Galley.Markup

variable {κ : Type} {delimiter : Delimiter κ}

/-! ## Deleting an event -/

/-- The event opens no region, as nothing behind it closes it, and closes none, as nothing before
it asks for its mark. -/
structure Idle (delimiter : Delimiter κ) (before : List Event) (event : Event)
    (after : List Event) : Prop where
  unclosed : Unclosed delimiter event after
  unasked : ∀ earlier ∈ before, ∀ label closer, delimiter earlier.mark = some (label, closer) →
    event.mark ≠ closer

theorem Idle.of_append {before between after : List Event} {event : Event}
    (h : Idle delimiter (before ++ between) event after) : Idle delimiter between event after :=
  ⟨h.unclosed, fun earlier hearlier => h.unasked earlier (List.mem_append_right _ hearlier)⟩

/-- The region with some of the events inside it. -/
def Region.keep (p : Event → Bool) (region : Region κ) : Region κ :=
  { region with inside := region.inside.filter p }

theorem Idle.unclosed_insert {first event : Event} {rest after : List Event}
    (h : Idle delimiter (first :: rest) event after)
    (hunclosed : Unclosed delimiter first (rest ++ after)) :
    Unclosed delimiter first (rest ++ event :: after) := by
  intro label closer hopens later hlater
  simp only [List.mem_append, List.mem_cons] at hlater
  rcases hlater with hlater | rfl | hlater
  · exact hunclosed label closer hopens later (List.mem_append_left _ hlater)
  · exact h.unasked first (by simp) label closer hopens
  · exact hunclosed label closer hopens later (List.mem_append_right _ hlater)

/-- A region that goes beyond an idle event is there with it and without. -/
theorem regions_delete_inside {p : Event → Bool} {region : Region κ} {closer : Mark}
    {rest inside behind : List Event} {event : Event} (hclosed : region.Closed delimiter closer)
    (hinside : region.inside = rest ++ inside) (hne : event.mark ≠ closer) (hp : p event = false) :
    (regions delimiter
          (region.opening :: (rest ++ event :: (inside ++ region.closing :: behind)))).map
        (Region.keep p) =
      (regions delimiter
          (region.opening :: (rest ++ (inside ++ region.closing :: behind)))).map
        (Region.keep p) := by
  have hwith :
      Region.Closed delimiter closer { region with inside := rest ++ event :: inside } := by
    refine ⟨hclosed.opens, ?_, hclosed.closes⟩
    intro other hother
    have hmem : other = event ∨ other ∈ region.inside := by
      rw [hinside]
      simpa [or_left_comm] using hother
    rcases hmem with rfl | hmem
    · exact hne
    · exact hclosed.inside_ne other hmem
  have hover := regions_opening_append hwith behind
  have hunder := regions_opening_append hclosed behind
  rw [hinside] at hunder
  simp only [List.append_assoc, List.cons_append] at hover hunder
  rw [hover, hunder]
  simp [Region.keep, hinside, hp]

/-- An element of a list that is cut in two stands behind the cut or before it. -/
theorem element_behind_or_before {α : Type} {inside behind front back : List α} {element : α}
    (h : front ++ back = inside ++ element :: behind) :
    (∃ rest, inside = front ++ rest ∧ back = rest ++ element :: behind) ∨
      ∃ rest, front = inside ++ element :: rest ∧ behind = rest ++ back := by
  rcases List.append_eq_append_iff.mp h with hbehind | ⟨between, rfl, hbetween⟩
  · exact .inl hbehind
  · rcases List.cons_eq_append_iff.mp hbetween with ⟨rfl, rfl⟩ | ⟨rest, rfl, hrest⟩
    · exact .inl ⟨[], by simp, rfl⟩
    · exact .inr ⟨rest, rfl, hrest⟩

/-- Up to the events inside them the regions stay the same when an idle event is deleted. The
induction is over the events before it: the first of them is passed over, opens a region that
goes beyond the event, or opens one that ends before it. -/
theorem regions_delete {p : Event → Bool} {before after : List Event} {event : Event}
    (hidle : Idle delimiter before event after) (hp : p event = false) :
    (regions delimiter (before ++ event :: after)).map (Region.keep p) =
      (regions delimiter (before ++ after)).map (Region.keep p) := by
  induction hlength : before.length using Nat.strongRecOn generalizing before with
  | ind n ih =>
      subst hlength
      cases before with
      | nil => rw [List.nil_append, List.nil_append, regions_cons_of_unclosed hidle.unclosed]
      | cons first rest =>
          rw [List.cons_append, List.cons_append]
          rcases unclosed_or_closed delimiter first (rest ++ after) with
            hunclosed | ⟨region, closer, behind, hclosed, rfl, hbehind⟩
          · have hrest : Idle delimiter ([first] ++ rest) event after := hidle
            rw [regions_cons_of_unclosed (hidle.unclosed_insert hunclosed),
              regions_cons_of_unclosed hunclosed]
            exact ih rest.length (by simp) hrest.of_append rfl
          · have hne : event.mark ≠ closer :=
              hidle.unasked region.opening (by simp) _ _ hclosed.opens
            rcases element_behind_or_before hbehind with
              ⟨inside, hinside, rfl⟩ | ⟨between, rfl, rfl⟩
            · exact regions_delete_inside hclosed hinside hne hp
            · have hrest : Idle delimiter
                  ((region.opening :: (region.inside ++ [region.closing])) ++ between)
                  event after := by
                simpa using hidle
              have hsame := ih between.length (by simp; omega) hrest.of_append rfl
              rw [hbehind, regions_opening_append hclosed, List.append_assoc, List.cons_append,
                regions_opening_append hclosed, List.map_cons, List.map_cons, hsame]

/-! ## Keeping the events that matter -/

/-- Every event that is left out opens no region and closes none. -/
def Suffices (delimiter : Delimiter κ) (p : Event → Bool) : Prop :=
  ∀ event, p event = false → delimiter event.mark = none ∧
    ∀ mark label closer, delimiter mark = some (label, closer) → event.mark ≠ closer

/-- For what stands between two marks, the events with one of them suffice. -/
theorem suffices_between {opener closer : Mark} {p : Event → Bool}
    (h : ∀ event, p event = false → event.mark ≠ opener ∧ event.mark ≠ closer) :
    Suffices (between opener closer) p := by
  intro event hevent
  obtain ⟨hopener, hcloser⟩ := h event hevent
  refine ⟨if_neg hopener, ?_⟩
  intro mark label closing hopens
  rw [(between_eq_some_iff.mp hopens).2]
  exact hcloser

theorem regions_filter {p : Event → Bool} (h : Suffices delimiter p) (events : List Event) :
    (regions delimiter (events.filter p)).map (Region.keep p) =
      (regions delimiter events).map (Region.keep p) := by
  have hall : ∀ before, (regions delimiter (before ++ events.filter p)).map (Region.keep p) =
      (regions delimiter (before ++ events)).map (Region.keep p) := by
    induction events with
    | nil => exact fun _ => rfl
    | cons event events ih =>
        intro before
        have hkept := ih (before ++ [event])
        rw [List.append_assoc, List.append_assoc, List.singleton_append,
          List.singleton_append] at hkept
        cases hp : p event with
        | true => rw [List.filter_cons_of_pos hp, hkept]
        | false =>
            obtain ⟨hnone, hcloses⟩ := h event hp
            have hidle : Idle delimiter before event events := by
              refine ⟨by simp [Unclosed, hnone], ?_⟩
              intro earlier _ label closer hopens
              exact hcloses earlier.mark label closer hopens
            rw [List.filter_cons_of_neg (by simp [hp]), ih before, regions_delete hidle hp]
  exact hall []

end Galley.Markup
