import Mathlib.Logic.Relation
import Galley.Proofs.Display.Pairing
import Galley.Proofs.Markup.Deletion

/-! # Markup that bears on no environment -/

namespace Galley.Display

open Galley.Markup

/-- What an event between others may be so that no block of the named environments needs it: an
end of another environment, a formula sign, or one half of an environment without the other. -/
inductive Irrelevant (names : List String) (before after : List Event) : Mark → Prop where
  | unnamedBegin {name : String} : name ∉ names → Irrelevant names before after (.beginEnv name)
  | unnamedEnd {name : String} : name ∉ names → Irrelevant names before after (.endEnv name)
  | doubleDollar : Irrelevant names before after .doubleDollar
  | bracketOpen : Irrelevant names before after .bracketOpen
  | bracketClose : Irrelevant names before after .bracketClose
  | unclosed {name : String} : name ∈ names → (∀ later ∈ after, later.mark ≠ .endEnv name) →
      Irrelevant names before after (.beginEnv name)
  | unopened {name : String} : name ∈ names →
      (∀ earlier ∈ before, earlier.mark ≠ .beginEnv name) →
      Irrelevant names before after (.endEnv name)

theorem Irrelevant.ne_lineBreak {names : List String} {before after : List Event} {mark : Mark}
    (h : Irrelevant names before after mark) : mark ≠ .lineBreak := by
  rintro rfl
  cases h

theorem Irrelevant.idle {names : List String} {before after : List Event} {event : Event}
    (h : Irrelevant names before after event.mark) :
    Idle (environments names) before event after := by
  constructor
  · intro name closer hopens later hlater
    obtain ⟨hname, hmark, rfl⟩ := environments_eq_some_iff.mp hopens
    rw [hmark] at h
    cases h with
    | unnamedBegin hunnamed => exact absurd hname hunnamed
    | unclosed _ hnone => exact hnone later hlater
  · intro earlier hearlier name closer hopens hmark
    obtain ⟨hname, hbegin, rfl⟩ := environments_eq_some_iff.mp hopens
    rw [hmark] at h
    cases h with
    | unnamedEnd hunnamed => exact hunnamed hname
    | unopened _ hnone => exact hnone earlier hearlier hbegin

/-- The block of an environment depends on the line breaks inside it only. -/
theorem Block.ofEnvironment_keep (region : Region String) :
    Block.ofEnvironment (region.keep (·.mark == .lineBreak)) = Block.ofEnvironment region := by
  simp [Block.ofEnvironment, Block.ofRegion, Region.keep, List.countP_filter]

theorem environmentBlocks_delete {names : List String} {before after : List Event} {event : Event}
    (h : Irrelevant names before after event.mark) :
    environmentBlocks names (before ++ event :: after) =
      environmentBlocks names (before ++ after) := by
  have hblocks : ∀ events, environmentBlocks names events =
      ((regions (environments names) events).map (Region.keep (·.mark == .lineBreak))).map
        Block.ofEnvironment := by
    intro events
    rw [List.map_map, environmentBlocks]
    exact List.map_congr_left fun region _ => (Block.ofEnvironment_keep region).symm
  rw [hblocks, hblocks, regions_delete h.idle (by simpa using h.ne_lineBreak)]

/-! ## One event after another -/

/-- An irrelevant event is taken out of a sequence. -/
inductive Deletes (names : List String) : List Event → List Event → Prop where
  | event (before : List Event) (event : Event) (after : List Event) :
      Irrelevant names before after event.mark →
      Deletes names (before ++ event :: after) (before ++ after)

/-- Taking out irrelevant events one after another leaves the environment blocks as they are, with
their starts and ends, names and line breaks. Whether an event is irrelevant is decided by what is
left when its turn comes. -/
theorem environmentBlocks_of_deletions {names : List String} {events kept : List Event}
    (h : Relation.ReflTransGen (Deletes names) events kept) :
    environmentBlocks names kept = environmentBlocks names events := by
  induction h with
  | refl => rfl
  | tail _ hdeletes ih =>
      cases hdeletes with
      | event _ _ _ hirrelevant => rw [← ih, environmentBlocks_delete hirrelevant]

/-- An environment of two rows, with strays around it and inside: an end without a beginning, a
beginning without an end, double dollars and a figure. -/
def strayMarks : List Event :=
  [⟨.endEnv "align", 0⟩, ⟨.beginEnv "align", 11⟩, ⟨.beginEnv "equation", 24⟩, ⟨.doubleDollar, 40⟩,
    ⟨.lineBreak, 42⟩, ⟨.beginEnv "figure", 44⟩, ⟨.endEnv "align", 58⟩]

theorem environmentBlocks_strayMarks :
    environmentBlocks defaultEnvironments strayMarks = [⟨.environment "align" 1, 11, 58⟩] := by
  have hdeletions : Relation.ReflTransGen (Deletes defaultEnvironments) strayMarks
      [⟨.beginEnv "align", 11⟩, ⟨.lineBreak, 42⟩, ⟨.endEnv "align", 58⟩] := by
    refine .head (.event [] _ _ (.unopened (by decide) (by decide))) ?_
    refine .head (.event [_] _ _ (.unclosed (by decide) (by decide))) ?_
    refine .head (.event [_] _ _ .doubleDollar) ?_
    exact .head (.event [_, _] _ _ (.unnamedBegin (by decide))) .refl
  exact (environmentBlocks_of_deletions hdeletions).symm.trans (by decide)

end Galley.Display
