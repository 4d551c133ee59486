import Galley.Proofs.Display.Formulas
import Galley.Proofs.Display.Pairing
import Galley.Proofs.Markup.Cut
import Galley.Text.Braced

/-! # Displayed lines of a text in parts -/

namespace Galley

open Markup Display

/-! ## Lines by regions -/

theorem countLines_eq (names : List String) (source : String) :
    countLines names source =
      ((regions (environments names) (events source)).map
          fun region => region.inside.countP (·.mark == .lineBreak) + 1).sum +
        ((regions dollars (events source)).map fun _ => 1).sum +
        ((regions brackets (events source)).map fun _ => 1).sum := by
  have hfoldr : ∀ found : List Block,
      found.foldr (fun block n => block.lineCount + n) 0 = (found.map Block.lineCount).sum := by
    intro found
    induction found with
    | nil => rfl
    | cons block found ih => simp [ih]
  rw [countLines, hfoldr, blocks, List.map_append, List.map_append, List.sum_append,
    List.sum_append, environmentBlocks, dollarBlocks, bracketBlocks, formulaBlocks, formulaBlocks,
    List.map_map, List.map_map, List.map_map]
  rfl

namespace Display

/-- The displayed lines that some events give. -/
def linesOf (names : List String) (events : List Event) : Nat :=
  ((regions (environments names) events).map
      fun region => region.inside.countP (·.mark == .lineBreak) + 1).sum +
    (regions dollars events).length + (regions brackets events).length

theorem countLines_eq_linesOf (names : List String) (source : String) :
    countLines names source = linesOf names (events source) := by
  simp [countLines_eq, linesOf]

/-- Where the events stand has no influence on the number of lines. -/
theorem linesOf_map_move (names : List String) (place : Nat → Nat) (events : List Event) :
    linesOf names (events.map (Event.move place)) = linesOf names events := by
  have hinside : ∀ region : Region String,
      ((region.move place).inside.countP (·.mark == .lineBreak)) =
        region.inside.countP (·.mark == .lineBreak) := by
    intro region
    rw [Region.move, List.countP_map]
    rfl
  simp only [linesOf, regions_map_move, List.length_map, List.map_map, Function.comp_def, hinside]

/-! ## Parts that stand for themselves -/

/-- Nothing in the events waits for events behind them: every opening of a named environment
begins a block or lies inside one, double dollars are even in number, and no opening bracket
comes behind the last formula in brackets. -/
structure SelfContained (names : List String) (events : List Event) : Prop where
  openings : ∀ event ∈ events, ∀ name ∈ names, event.mark = .beginEnv name →
    ∃ block ∈ environmentBlocks names events,
      block.start ≤ event.position ∧ event.position < block.stop
  even : Even (dollarEvents events).length
  closed : ∀ event ∈ events, event.mark = .bracketOpen →
    ∃ last ∈ (bracketBlocks events).getLast?, event.position ≤ last.stop

namespace SelfContained

variable {names : List String} {front : List Event}

theorem regions_environments (h : SelfContained names front) (hevents : Increasing front)
    (back : List Event) :
    regions (environments names) (front ++ back) =
      regions (environments names) front ++ regions (environments names) back := by
  apply regions_append hevents
  intro event hevent hopens
  obtain ⟨⟨name, closer⟩, hopens⟩ := Option.isSome_iff_exists.mp hopens
  obtain ⟨hname, hmark, -⟩ := environments_eq_some_iff.mp hopens
  obtain ⟨block, hblock, hstart, hstop⟩ := h.openings event hevent name hname hmark
  obtain ⟨region, hregion, rfl⟩ := List.mem_map.mp hblock
  exact ⟨region, hregion, hstart, Nat.le_of_lt hstop⟩

theorem length_regions_dollars (h : SelfContained names front) (back : List Event) :
    (regions dollars (front ++ back)).length =
      (regions dollars front).length + (regions dollars back).length := by
  have hlength : ∀ events, (regions dollars events).length =
      (dollarEvents events).length / 2 := by
    intro events
    rw [← length_dollarBlocks, dollarBlocks, formulaBlocks, List.length_map]
  have hsum : (dollarEvents (front ++ back)).length =
      (dollarEvents front).length + (dollarEvents back).length := by
    simp [dollarEvents]
  obtain ⟨n, hn⟩ := h.even
  rw [hlength, hlength, hlength]
  omega

theorem regions_brackets (h : SelfContained names front) (hevents : Increasing front)
    (back : List Event) :
    regions brackets (front ++ back) =
      regions brackets front ++ regions brackets back := by
  apply regions_append hevents
  intro event hevent hopens
  obtain ⟨⟨label, closer⟩, hopens⟩ := Option.isSome_iff_exists.mp hopens
  obtain ⟨hmark, rfl⟩ := between_eq_some_iff.mp hopens
  obtain ⟨last, hlast, hle⟩ := h.closed event hevent hmark
  have hbracketed := (bracketed_of_mem_bracketBlocks hevents (List.mem_of_getLast? hlast)).1
  have hne : event.position ≠ last.stop := by
    intro heq
    have hsame := hevents.eq_of_position_eq hevent hbracketed.closes heq
    rw [hsame] at hmark
    cases hmark
  exact exists_region hevents hevent hopens hbracketed.closes rfl (by simp only; omega)

theorem linesOf_append (h : SelfContained names front) (hevents : Increasing front)
    (back : List Event) :
    linesOf names (front ++ back) = linesOf names front + linesOf names back := by
  rw [linesOf, h.regions_environments hevents, h.length_regions_dollars,
    h.regions_brackets hevents, List.map_append, List.sum_append, List.length_append, linesOf,
    linesOf]
  omega

end SelfContained

/-- Behind a closing brace the scan goes on as in a text of its own. If nothing in front of the
brace waits for what is behind it, the displayed lines of the two parts add up. -/
theorem events_countLines_append {front : String} (h : front.toList.getLast? = some '}')
    (back : String) :
    events (front ++ back) = events front ++ (events back).map (Event.move (front.length + ·)) ∧
      ∀ names, SelfContained names (events front) →
        countLines names (front ++ back) = countLines names front + countLines names back := by
  have happend := events_append (cleanCut_of_getLast? h back.toList)
  refine ⟨happend, ?_⟩
  intro names hself
  rw [countLines_eq_linesOf, countLines_eq_linesOf, countLines_eq_linesOf, happend,
    hself.linesOf_append (events_increasing front), linesOf_map_move]

/-- Two rows and two formulas, with a stray beginning inside the environment. -/
def threeFormulas : String :=
  "\\begin" ++ Text.braced "align" ++ "a\\\\\\begin" ++ Text.braced "equation" ++
    "\\end" ++ Text.braced "align" ++ "$$b$$\\[c\\[\\]\\textbf" ++ Text.braced "d"

/-- The ends of environments and formulas that another text would have to begin. -/
def strayEnds : String :=
  "\\\\[2pt]\\end" ++ Text.braced "equation" ++ "\\]$$e$$"

theorem countLines_threeFormulas_append :
    countLines defaultEnvironments (threeFormulas ++ strayEnds) = 4 + 1 := by
  have hself : SelfContained defaultEnvironments (events threeFormulas) :=
    ⟨by decide +kernel, by decide +kernel, by decide +kernel⟩
  have hadd := (events_countLines_append (by decide +kernel) strayEnds).2 _ hself
  exact hadd.trans (by decide +kernel)

end Display

end Galley
