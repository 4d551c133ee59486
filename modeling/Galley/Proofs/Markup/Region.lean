import Mathlib.Data.List.TakeWhile
import Galley.Markup.Region
import Galley.Proofs.Leftmost
import Galley.Proofs.Markup.Order

/-! # Regions as written in a sequence of events -/

namespace Galley.Markup

variable {κ : Type} {delimiter : Delimiter κ}

/-- The events of a region with its opening and its closing. -/
def Region.events (region : Region κ) : List Event :=
  region.opening :: (region.inside ++ [region.closing])

/-- The opening carries the label and asks for a closing mark, which the closing event has and
no event before it. -/
structure Region.Closed (delimiter : Delimiter κ) (closer : Mark) (region : Region κ) : Prop where
  opens : delimiter region.opening.mark = some (region.label, closer)
  inside_ne : ∀ event ∈ region.inside, event.mark ≠ closer
  closes : region.closing.mark = closer

/-- A region is written as its events. -/
def Region.Written (delimiter : Delimiter κ) : Grammar Event (Region κ) := fun written region =>
  written = region.events ∧ ∃ closer, region.Closed delimiter closer

@[simp] theorem Region.length_events (region : Region κ) :
    region.events.length = region.inside.length + 2 := by
  simp [events]

theorem Region.Closed.read {closer : Mark} {region : Region κ}
    (h : region.Closed delimiter closer) (rest : List Event) :
    Region.read delimiter (region.events ++ rest) = some (region, region.events.length) := by
  have hclosing : (region.closing.mark != closer) = false := by simp [h.closes]
  have hinside : (region.inside ++ region.closing :: rest).takeWhile (·.mark != closer) =
      region.inside := by
    rw [List.takeWhile_append_of_pos (by simpa using h.inside_ne),
      List.takeWhile_cons_of_neg (by simp [hclosing]), List.append_nil]
  have hevents : region.events ++ rest =
      region.opening :: (region.inside ++ region.closing :: rest) := by
    simp [Region.events]
  rw [hevents, Region.length_events]
  simp [Region.read, h.opens, hinside]

theorem getElem?_length_takeWhile {α : Type} (p : α → Bool) (list : List α) :
    list[(list.takeWhile p).length]? = (list.dropWhile p).head? := by
  induction list with
  | nil => rfl
  | cons a list ih => by_cases h : p a <;> simp [h, ih]

theorem Region.Closed.of_read {events : List Event} {region : Region κ} {length : Nat}
    (h : Region.read delimiter events = some (region, length)) :
    ∃ closer, region.Closed delimiter closer ∧ region.events.length = length ∧
      region.events <+: events := by
  cases events with
  | nil => cases h
  | cons opening rest =>
      simp only [Region.read, Option.bind_eq_bind, Option.bind_eq_some_iff, Prod.exists] at h
      obtain ⟨label, closer, hopens, closing, hclosing, hregion⟩ := h
      obtain ⟨rfl, rfl⟩ := Prod.mk.inj (Option.some.inj hregion)
      let inside := rest.takeWhile (·.mark != closer)
      have hsplit : rest = inside ++ rest.dropWhile (·.mark != closer) :=
        List.takeWhile_append_dropWhile.symm
      have hhead := (getElem?_length_takeWhile _ rest).symm.trans hclosing
      have hmark := List.head?_dropWhile_not (·.mark != closer) rest
      rw [hhead] at hmark
      obtain ⟨after, hafter⟩ := List.head?_eq_some_iff.mp hhead
      refine ⟨closer, ⟨hopens, ?_, by simpa using hmark⟩, by simp, after, ?_⟩
      · intro event hevent
        simpa using List.mem_takeWhile_imp hevent
      · rw [hafter] at hsplit
        simpa [Region.events, inside] using hsplit.symm

theorem Region.read_decides (delimiter : Delimiter κ) :
    Reader.Decides (Region.read delimiter) (Region.Written delimiter) := by
  refine ⟨?_, ?_⟩
  · intro written region h hnil
    have hlength := congrArg List.length (h.1.symm.trans hnil)
    simp at hlength
  · intro events region length
    constructor
    · intro h
      obtain ⟨closer, hclosed, hlength, hpre⟩ := Region.Closed.of_read h
      exact ⟨region.events, ⟨rfl, closer, hclosed⟩, hlength, hpre⟩
    · intro h
      obtain ⟨written, ⟨hwritten, closer, hclosed⟩, hlength, rest, hrest⟩ := h
      subst hwritten
      rw [← hrest, ← hlength]
      exact hclosed.read rest

/-- The regions that are found are the leftmost ones. -/
theorem Region.leftmost (delimiter : Delimiter κ) (events : List Event) :
    Leftmost (Region.Written delimiter) events 0 (occurrences (Region.read delimiter) events) :=
  leftmost_occurrences (Region.read_decides delimiter) events

theorem between_eq_some_iff {opener closer mark closing : Mark} {label : Unit} :
    between opener closer mark = some (label, closing) ↔ mark = opener ∧ closing = closer := by
  by_cases h : mark = opener <;> simp [between, h, eq_comm]

/-! ## The first event of a sequence -/

/-- If the event asks for a closing mark at all, nothing behind it has that mark. -/
def Unclosed (delimiter : Delimiter κ) (event : Event) (rest : List Event) : Prop :=
  ∀ label closer, delimiter event.mark = some (label, closer) →
    ∀ later ∈ rest, later.mark ≠ closer

/-- The first event is passed over or opens a region. -/
theorem unclosed_or_closed (delimiter : Delimiter κ) (event : Event) (rest : List Event) :
    Unclosed delimiter event rest ∨
      ∃ region closer behind, Region.Closed delimiter closer region ∧ event = region.opening ∧
        rest = region.inside ++ region.closing :: behind := by
  cases hopens : delimiter event.mark with
  | none => exact .inl (by simp [Unclosed, hopens])
  | some found =>
      obtain ⟨label, closer⟩ := found
      cases hfind : rest.find? (·.mark == closer) with
      | none =>
          left
          intro label' closer' hopens' later hlater
          obtain ⟨-, rfl⟩ := Prod.mk.inj (Option.some.inj (hopens.symm.trans hopens'))
          simpa using List.find?_eq_none.mp hfind later hlater
      | some closing =>
          obtain ⟨hclosing, inside, behind, rfl, hinside⟩ :=
            List.find?_eq_some_iff_append.mp hfind
          refine .inr ⟨⟨label, event, inside, closing⟩, closer, behind, ⟨hopens, ?_, ?_⟩, rfl, rfl⟩
          · intro other hother
            simpa using hinside other hother
          · simpa using hclosing

/-! ## Where a region stands -/

theorem Region.exists_append_of_standsAt {events : List Event} {position length : Nat}
    {region : Region κ} (h : (Region.Written delimiter).StandsAt events position length region) :
    ∃ before after closer, events = before ++ region.events ++ after ∧
      before.length = position ∧ length = region.inside.length + 2 ∧
      region.Closed delimiter closer := by
  obtain ⟨written, ⟨hwritten, closer, hclosed⟩, hlength, after, hafter⟩ := h
  subst hwritten
  refine ⟨events.take position, after, closer, ?_, ?_, ?_, hclosed⟩
  · rw [List.append_assoc, hafter, List.take_append_drop]
  · have hdrop := congrArg List.length hafter
    simp only [List.length_append, List.length_drop, Region.length_events] at hdrop
    rw [List.length_take]
    omega
  · rw [← hlength, Region.length_events]

theorem Region.opening_getElem? {events : List Event} {position length : Nat} {region : Region κ}
    (h : (Region.Written delimiter).StandsAt events position length region) :
    events[position]? = some region.opening := by
  obtain ⟨before, after, closer, rfl, rfl, -, -⟩ := Region.exists_append_of_standsAt h
  simp [Region.events]

theorem Region.closing_getElem? {events : List Event} {position length : Nat} {region : Region κ}
    (h : (Region.Written delimiter).StandsAt events position length region) :
    events[position + length - 1]? = some region.closing := by
  obtain ⟨before, after, closer, rfl, rfl, rfl, -⟩ := Region.exists_append_of_standsAt h
  rw [List.append_assoc, List.getElem?_append_right (by omega), Region.events]
  have hindex : before.length + (region.inside.length + 2) - 1 - before.length =
      region.inside.length + 1 := by omega
  rw [hindex, List.cons_append, List.getElem?_cons_succ, List.append_assoc,
    List.getElem?_append_right (by omega), Nat.sub_self]
  rfl

/-- A region stands wherever an opening has its closing mark somewhere behind it. -/
theorem Region.exists_standsAt {events : List Event} {i j : Nat} {opening closing : Event}
    {label : κ} {closer : Mark} (hopening : events[i]? = some opening)
    (hopens : delimiter opening.mark = some (label, closer)) (hclosing : events[j]? = some closing)
    (hcloses : closing.mark = closer) (hlt : i < j) :
    ∃ length region, (Region.Written delimiter).StandsAt events i length region := by
  obtain ⟨hi, hget⟩ := List.getElem?_eq_some_iff.mp hopening
  have hdrop : events.drop i = opening :: events.drop (i + 1) := by
    rw [List.drop_eq_getElem_cons hi, hget]
  have hmem : closing ∈ events.drop (i + 1) := by
    apply List.mem_iff_getElem?.mpr
    refine ⟨j - (i + 1), ?_⟩
    rw [List.getElem?_drop, show i + 1 + (j - (i + 1)) = j by omega]
    exact hclosing
  rcases unclosed_or_closed delimiter opening (events.drop (i + 1)) with
    hunclosed | ⟨region, closer', behind, hclosed, rfl, hrest⟩
  · exact absurd hcloses (hunclosed label closer hopens closing hmem)
  · refine ⟨_, region, _, ⟨rfl, closer', hclosed⟩, rfl, behind, ?_⟩
    rw [hdrop, hrest]
    simp [Region.events]

theorem Region.opening_mem {region : Region κ} {mark : Mark} (h : region.opening.mark = mark)
    (before after : List Event) :
    ⟨mark, region.opening.position⟩ ∈ before ++ region.events ++ after := by
  rw [← h]
  simp [Region.events]

theorem Region.closing_mem {region : Region κ} {mark : Mark} (h : region.closing.mark = mark)
    (before after : List Event) :
    ⟨mark, region.closing.position⟩ ∈ before ++ region.events ++ after := by
  rw [← h]
  simp [Region.events]

/-- How the events around and inside a region stand to its ends. -/
structure Region.Bounds (region : Region κ) (before after : List Event) : Prop where
  before_lt : ∀ event ∈ before, event.position < region.opening.position
  opening_lt : region.opening.position < region.closing.position
  inside_gt : ∀ event ∈ region.inside, region.opening.position < event.position
  inside_lt : ∀ event ∈ region.inside, event.position < region.closing.position
  after_gt : ∀ event ∈ after, region.closing.position < event.position

theorem Increasing.bounds {before after : List Event} {region : Region κ}
    (h : Increasing (before ++ region.events ++ after)) : region.Bounds before after := by
  rw [Increasing, List.pairwise_append, List.pairwise_append, Region.events,
    List.pairwise_cons, List.pairwise_append] at h
  obtain ⟨⟨-, ⟨hopening, -, -, hclosing⟩, hbefore⟩, -, hafter⟩ := h
  refine ⟨?_, ?_, ?_, ?_, ?_⟩
  · intro event hevent
    exact hbefore event hevent region.opening (by simp)
  · exact hopening region.closing (by simp)
  · intro event hevent
    exact hopening event (by simp [hevent])
  · intro event hevent
    exact hclosing event hevent region.closing (by simp)
  · intro event hevent
    exact hafter region.closing (by simp) event hevent

/-! ## Regions one after the other -/

theorem regions_append_of_not_opening {front : List Event}
    (h : ∀ event ∈ front, delimiter event.mark = none) (events : List Event) :
    regions delimiter (front ++ events) = regions delimiter events := by
  induction front with
  | nil => rfl
  | cons event front ih =>
      have hnone : Region.read delimiter (event :: (front ++ events)) = none := by
        simp [Region.read, h event (by simp)]
      rw [regions, List.cons_append, readings_cons_of_none hnone]
      exact ih fun other hother => h other (List.mem_cons_of_mem event hother)

theorem regions_append_closed {closer : Mark} {region : Region κ}
    (h : region.Closed delimiter closer) (events : List Event) :
    regions delimiter (region.events ++ events) = region :: regions delimiter events :=
  readings_append_of_some (by simp [Region.events]) (h.read events)

theorem regions_cons_of_unclosed {event : Event} {rest : List Event}
    (h : Unclosed delimiter event rest) :
    regions delimiter (event :: rest) = regions delimiter rest := by
  apply readings_cons_of_none
  cases hopens : delimiter event.mark with
  | none => simp [Region.read, hopens]
  | some found =>
      obtain ⟨label, closer⟩ := found
      have hinside : rest.takeWhile (·.mark != closer) = rest := by
        apply List.takeWhile_eq_self_iff.mpr
        intro later hlater
        simpa using h label closer hopens later hlater
      simp [Region.read, hopens, hinside]

theorem regions_opening_append {closer : Mark} {region : Region κ}
    (h : region.Closed delimiter closer) (behind : List Event) :
    regions delimiter (region.opening :: (region.inside ++ region.closing :: behind)) =
      region :: regions delimiter behind := by
  rw [← regions_append_closed h]
  simp [Region.events]

end Galley.Markup
