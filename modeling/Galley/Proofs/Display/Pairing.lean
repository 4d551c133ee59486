import Galley.Display
import Galley.Proofs.Markup.Grammar
import Galley.Proofs.Markup.RegionOrder

/-! # Pairing the ends of display environments -/

namespace Galley.Display

open Galley.Markup

/-! ## The pairing -/

/-- The block reaches from an opening of `name` to the first closing of `name` behind it, and
has as many line breaks as there are strictly between the two. -/
structure Block.Pairs (events : List Event) (name : String) (block : Block) : Prop where
  opens : ⟨.beginEnv name, block.start⟩ ∈ events
  closes : ⟨.endEnv name, block.stop⟩ ∈ events
  start_lt_stop : block.start < block.stop
  first : ∀ position, ⟨.endEnv name, position⟩ ∈ events → block.start < position →
    block.stop ≤ position
  shape : block.shape = .environment name (events.countP fun event =>
    event.mark = .lineBreak ∧ block.start < event.position ∧ event.position < block.stop)

/-- Blocks of the named environments in order and apart. Every opening of a named environment
begins a block, or lies inside one, or is never closed. -/
structure EnvironmentPairing (names : List String) (events : List Event) (found : List Block) :
    Prop where
  apart : found.Pairwise fun a b => a.stop < b.start
  pairs : ∀ block ∈ found, ∃ name ∈ names, block.Pairs events name
  complete : ∀ name ∈ names, ∀ position, ⟨.beginEnv name, position⟩ ∈ events →
    (∃ block ∈ found, block.start = position) ∨
      (∃ block ∈ found, block.start < position ∧ position < block.stop) ∨
      ∀ stop, ⟨.endEnv name, stop⟩ ∈ events → ¬ position < stop

theorem Block.Pairs.eq_of_start_eq {events : List Event} (hevents : Increasing events)
    {name other : String} {a b : Block} (ha : a.Pairs events name) (hb : b.Pairs events other)
    (heq : a.start = b.start) : a = b := by
  have hopening := hevents.eq_of_position_eq ha.opens hb.opens heq
  have hname : name = other := by simpa [heq] using hopening
  subst hname
  have hstop : a.stop = b.stop := by
    have hle := ha.first b.stop hb.closes (by have := hb.start_lt_stop; omega)
    have hge := hb.first a.stop ha.closes (by have := ha.start_lt_stop; omega)
    omega
  have hshape : a.shape = b.shape := by rw [ha.shape, hb.shape, heq, hstop]
  cases a
  cases b
  simp_all

theorem EnvironmentPairing.leftmostChoice {names : List String} {events : List Event}
    {found : List Block} (h : EnvironmentPairing names events found) :
    LeftmostChoice Block.start (fun block => block.stop + 1)
      (fun block => ∃ name ∈ names, block.Pairs events name) found := by
  refine ⟨h.apart, h.pairs, ?_⟩
  intro a ha
  obtain ⟨name, hname, hpairs⟩ := ha
  rcases h.complete name hname a.start hpairs.opens with hstart | hinside | hnever
  · obtain ⟨b, hb, hbegin⟩ := hstart
    obtain ⟨other, -, hother⟩ := h.pairs b hb
    have hspan := hother.start_lt_stop
    exact ⟨b, hb, by omega, by omega⟩
  · obtain ⟨b, hb, hlt, hgt⟩ := hinside
    exact ⟨b, hb, by omega, by omega⟩
  · exact absurd hpairs.start_lt_stop (hnever a.stop hpairs.closes)

/-- The conditions on a pairing determine it. -/
theorem EnvironmentPairing.unique {names : List String} {events : List Event}
    {found other : List Block} (hevents : Increasing events)
    (h : EnvironmentPairing names events found) (h' : EnvironmentPairing names events other) :
    found = other := by
  apply h.leftmostChoice.unique ?_ ?_ h'.leftmostChoice
  · intro a ha
    obtain ⟨name, -, hpairs⟩ := ha
    have hspan := hpairs.start_lt_stop
    omega
  · intro a b ha hb heq
    obtain ⟨name, -, ha⟩ := ha
    obtain ⟨other, -, hb⟩ := hb
    exact ha.eq_of_start_eq hevents hb heq

/-! ## The environments that are found -/

theorem environments_eq_some_iff {names : List String} {mark closer : Mark} {label : String} :
    environments names mark = some (label, closer) ↔
      label ∈ names ∧ mark = .beginEnv label ∧ closer = .endEnv label := by
  cases mark with
  | beginEnv name =>
      by_cases h : name ∈ names
      · simp [environments, h]
        grind
      · simp [environments, h]
        grind
  | _ => simp [environments]

/-- In a sequence of events the line breaks between the ends of a region are those inside it. -/
theorem countP_between {before after : List Event} {region : Region String}
    (h : region.Bounds before after) :
    ((before ++ region.events ++ after).countP fun event =>
        event.mark = .lineBreak ∧ region.opening.position < event.position ∧
          event.position < region.closing.position) =
      region.inside.countP (·.mark == .lineBreak) := by
  let between (event : Event) : Bool :=
    event.mark = .lineBreak ∧ region.opening.position < event.position ∧
      event.position < region.closing.position
  change (before ++ region.events ++ after).countP between = _
  have hbefore : before.countP between = 0 := by
    apply List.countP_eq_zero.mpr
    intro event hevent
    have hlt := h.before_lt event hevent
    simp only [between, decide_eq_true_eq]
    omega
  have hafter : after.countP between = 0 := by
    apply List.countP_eq_zero.mpr
    intro event hevent
    have hgt := h.after_gt event hevent
    simp only [between, decide_eq_true_eq]
    omega
  have hinside : region.inside.countP between = region.inside.countP (·.mark == .lineBreak) := by
    apply List.countP_congr
    intro event hevent
    simp [between, h.inside_gt event hevent, h.inside_lt event hevent]
  have hopening : between region.opening = false := by simp [between]
  have hclosing : between region.closing = false := by simp [between]
  simp [Region.events, hbefore, hafter, hinside, hopening, hclosing]

theorem Block.pairs_ofEnvironment {names : List String} {closer : Mark}
    {before after : List Event} {region : Region String}
    (hevents : Increasing (before ++ region.events ++ after))
    (h : region.Closed (environments names) closer) :
    (Block.ofEnvironment region).Pairs (before ++ region.events ++ after) region.label := by
  obtain ⟨-, hopening, hcloser⟩ := environments_eq_some_iff.mp h.opens
  have hclosing : region.closing.mark = .endEnv region.label := h.closes.trans hcloser
  have hbounds := hevents.bounds
  refine ⟨?_, ?_, hbounds.opening_lt, ?_, ?_⟩
  · exact Region.opening_mem hopening before after
  · exact Region.closing_mem hclosing before after
  · intro position hmem hstart
    exact h.closing_le hevents hmem hcloser.symm hstart
  · exact congrArg (Shape.environment region.label) (countP_between hbounds).symm

theorem environmentBlocks_apart {names : List String} {events : List Event}
    (hevents : Increasing events) :
    (environmentBlocks names events).Pairwise fun a b => a.stop < b.start :=
  List.pairwise_map.mpr (regions_apart hevents)

theorem pairs_of_mem_environmentBlocks {names : List String} {events : List Event}
    (hevents : Increasing events) {block : Block} (h : block ∈ environmentBlocks names events) :
    ∃ name ∈ names, block.Pairs events name := by
  obtain ⟨region, hregion, rfl⟩ := List.mem_map.mp h
  obtain ⟨before, after, closer, rfl, hclosed⟩ := exists_append_of_mem_regions hregion
  have hlabel := (environments_eq_some_iff.mp hclosed.opens).1
  exact ⟨region.label, hlabel, Block.pairs_ofEnvironment hevents hclosed⟩

/-- An opening that is closed somewhere behind it begins a block or lies inside one. -/
theorem exists_environmentBlock {names : List String} {events : List Event}
    (hevents : Increasing events) {name : String} (hname : name ∈ names) {start stop : Nat}
    (hopening : ⟨.beginEnv name, start⟩ ∈ events) (hclosing : ⟨.endEnv name, stop⟩ ∈ events)
    (hlt : start < stop) :
    ∃ block ∈ environmentBlocks names events,
      block.start = start ∨ block.start < start ∧ start < block.stop := by
  obtain ⟨region, hregion, hle, hge⟩ := exists_region hevents hopening
    (environments_eq_some_iff.mpr ⟨hname, rfl, rfl⟩) hclosing rfl hlt
  have hblock : Block.ofEnvironment region ∈ environmentBlocks names events :=
    List.mem_map_of_mem hregion
  obtain ⟨other, -, hpairs⟩ := pairs_of_mem_environmentBlocks hevents hblock
  have hnotlast : start ≠ region.closing.position := by
    intro hlast
    have hsame := hevents.eq_of_position_eq hopening hpairs.closes hlast
    cases hsame
  simp only at hle hge
  refine ⟨Block.ofEnvironment region, hblock, ?_⟩
  change region.opening.position = start ∨
    region.opening.position < start ∧ start < region.closing.position
  omega

theorem environmentPairing_environmentBlocks (names : List String) {events : List Event}
    (hevents : Increasing events) :
    EnvironmentPairing names events (environmentBlocks names events) := by
  refine ⟨environmentBlocks_apart hevents, ?_, ?_⟩
  · intro block hblock
    exact pairs_of_mem_environmentBlocks hevents hblock
  · intro name hname start hopening
    by_cases hclosed : ∃ stop, ⟨.endEnv name, stop⟩ ∈ events ∧ start < stop
    · obtain ⟨stop, hclosing, hlt⟩ := hclosed
      obtain ⟨block, hblock, hstart | hinside⟩ :=
        exists_environmentBlock hevents hname hopening hclosing hlt
      · exact .inl ⟨block, hblock, hstart⟩
      · exact .inr (.inl ⟨block, hblock, hinside⟩)
    · refine .inr (.inr ?_)
      intro stop hclosing hlt
      exact hclosed ⟨stop, hclosing, hlt⟩

/-! ## The environment blocks of a text -/

def Block.isEnvironment (block : Block) : Bool :=
  match block.shape with
  | .environment .. => true
  | .doubleDollar | .bracket => false

theorem filter_isEnvironment_blocks (names : List String) (events : List Event) :
    (blocks names events).filter Block.isEnvironment = environmentBlocks names events := by
  have henvironments : (environmentBlocks names events).filter Block.isEnvironment =
      environmentBlocks names events := by
    apply List.filter_eq_self.mpr
    intro block hblock
    obtain ⟨region, -, rfl⟩ := List.mem_map.mp hblock
    rfl
  rw [blocks, List.filter_append, List.filter_append, henvironments]
  simp [dollarBlocks, bracketBlocks, formulaBlocks, Block.ofRegion, Block.isEnvironment]

/-- A position lies strictly inside one block at most, when the blocks are apart. -/
theorem countP_inside_le_one {found : List Block}
    (apart : found.Pairwise fun a b => a.stop < b.start) (position : Nat) :
    found.countP (fun block => block.start < position ∧ position < block.stop) ≤ 1 := by
  induction found with
  | nil => simp
  | cons block found ih =>
      obtain ⟨hfirst, hrest⟩ := List.pairwise_cons.mp apart
      by_cases h : block.start < position ∧ position < block.stop
      · have hnone : found.countP
            (fun block => block.start < position ∧ position < block.stop) = 0 := by
          apply List.countP_eq_zero.mpr
          intro other hother
          have hlt := hfirst other hother
          simp only [decide_eq_true_eq]
          omega
        rw [List.countP_cons, hnone]
        simp [h]
      · rw [List.countP_cons_of_neg (by simpa using h)]
        exact ih hrest

/-- The environment blocks of a text are the only pairing of the named environments. No event, and
so no line break, lies inside two of them. -/
theorem environmentPairing_iff (names : List String) (text : String) :
    (∀ found, EnvironmentPairing names (events text) found ↔
        found = (blocks names (events text)).filter Block.isEnvironment) ∧
      ∀ event : Event,
        ((blocks names (events text)).filter Block.isEnvironment).countP
          (fun block => block.start < event.position ∧ event.position < block.stop) ≤ 1 := by
  have hevents := events_increasing text
  have hpairing := environmentPairing_environmentBlocks names hevents
  rw [filter_isEnvironment_blocks]
  refine ⟨?_, ?_⟩
  · intro found
    constructor
    · intro h
      exact h.unique hevents hpairing
    · intro h
      rw [h]
      exact hpairing
  · intro event
    exact countP_inside_le_one hpairing.apart event.position

end Galley.Display
