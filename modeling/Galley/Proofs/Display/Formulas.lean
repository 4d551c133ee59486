import Mathlib.Combinatorics.Enumerative.DoubleCounting
import Mathlib.Data.List.Pairwise
import Galley.Display
import Galley.Proofs.Markup.Deletion
import Galley.Proofs.Markup.Grammar
import Galley.Proofs.Markup.RegionOrder

/-! # Formulas in double dollars and in brackets -/

namespace Galley.Display

open Galley.Markup

/-! ## Formulas between two marks -/

/-- The events that have neither mark make no difference. -/
theorem formulaBlocks_filter {opener closer : Mark} {p : Event → Bool}
    (h : ∀ event, p event = false → event.mark ≠ opener ∧ event.mark ≠ closer) (shape : Shape)
    (events : List Event) :
    formulaBlocks (between opener closer) shape (events.filter p) =
      formulaBlocks (between opener closer) shape events := by
  have hregions := congrArg (List.map (Block.ofRegion shape))
    (regions_filter (suffices_between h) events)
  rw [List.map_map, List.map_map] at hregions
  exact hregions

theorem shape_of_mem_formulaBlocks {delimiter : Delimiter Unit} {shape : Shape}
    {events : List Event} {block : Block} (h : block ∈ formulaBlocks delimiter shape events) :
    block.shape = shape := by
  obtain ⟨region, -, rfl⟩ := List.mem_map.mp h
  rfl

/-! ## Double dollars -/

/-- The elements of a list two by two. An odd last one is left over. -/
def pairUp {α : Type} : List α → List (α × α)
  | [] | [_] => []
  | first :: second :: rest => (first, second) :: pairUp rest

theorem length_pairUp {α : Type} (list : List α) : (pairUp list).length = list.length / 2 := by
  fun_induction pairUp list with
  | case1 => simp
  | case2 => simp
  | case3 first second rest ih =>
      simp only [List.length_cons, ih]
      omega

theorem getElem?_pairUp {α : Type} (list : List α) (k : Nat) (first second : α) :
    (pairUp list)[k]? = some (first, second) ↔
      list[2 * k]? = some first ∧ list[2 * k + 1]? = some second := by
  fun_induction pairUp list generalizing k with
  | case1 => simp
  | case2 => simp
  | case3 a b rest ih =>
      cases k with
      | zero => simp
      | succ k =>
          rw [show 2 * (k + 1) = 2 * k + 1 + 1 by omega]
          simpa using ih k

def dollarEvents (events : List Event) : List Event :=
  events.filter (·.mark = .doubleDollar)

/-- Among double dollars alone each pair is a region with nothing inside. -/
theorem regions_dollars {events : List Event} (h : ∀ event ∈ events, event.mark = .doubleDollar) :
    regions dollars events =
      (pairUp events).map fun (opening, closing) => ⟨(), opening, [], closing⟩ := by
  fun_induction pairUp events with
  | case1 => rfl
  | case2 opening => exact regions_cons_of_unclosed (by simp [Unclosed])
  | case3 opening closing rest ih =>
      have hclosed : Region.Closed dollars .doubleDollar ⟨(), opening, [], closing⟩ := by
        refine ⟨?_, by simp, h closing (by simp)⟩
        rw [h opening (by simp)]
        rfl
      have hrest := ih fun event hevent => h event (by simp [hevent])
      rw [List.map_cons, ← hrest]
      exact regions_opening_append hclosed rest

theorem dollarBlocks_eq (events : List Event) :
    dollarBlocks events = (pairUp (dollarEvents events)).map fun (opening, closing) =>
      ⟨.doubleDollar, opening.position, closing.position⟩ := by
  have hdollars : ∀ event ∈ dollarEvents events, event.mark = .doubleDollar := by
    intro event hevent
    simpa using (List.mem_filter.mp hevent).2
  have hsame : dollarBlocks (dollarEvents events) = dollarBlocks events :=
    formulaBlocks_filter (by simp) .doubleDollar events
  rw [← hsame, dollarBlocks, formulaBlocks, regions_dollars hdollars, List.map_map]
  rfl

theorem length_dollarBlocks (events : List Event) :
    (dollarBlocks events).length = (dollarEvents events).length / 2 := by
  rw [dollarBlocks_eq, List.length_map, length_pairUp]

/-- The double dollars are joined two by two in their order, each pair to a formula of one line. -/
structure DollarPairing (events : List Event) (found : List Block) : Prop where
  length_eq : found.length = (dollarEvents events).length / 2
  joins : ∀ k block, found[k]? = some block ↔
    ∃ opening closing, (dollarEvents events)[2 * k]? = some opening ∧
      (dollarEvents events)[2 * k + 1]? = some closing ∧
      block = ⟨.doubleDollar, opening.position, closing.position⟩
  one_line : ∀ block ∈ found, block.lineCount = 1

theorem dollarPairing_dollarBlocks (events : List Event) :
    DollarPairing events (dollarBlocks events) := by
  refine ⟨length_dollarBlocks events, ?_, ?_⟩
  · intro k block
    rw [dollarBlocks_eq, List.getElem?_map, Option.map_eq_some_iff]
    constructor
    · rintro ⟨⟨opening, closing⟩, hpair, rfl⟩
      obtain ⟨hopening, hclosing⟩ := (getElem?_pairUp _ k opening closing).mp hpair
      exact ⟨opening, closing, hopening, hclosing, rfl⟩
    · rintro ⟨opening, closing, hopening, hclosing, rfl⟩
      exact ⟨(opening, closing), (getElem?_pairUp _ k _ _).mpr ⟨hopening, hclosing⟩, rfl⟩
  · intro block hblock
    rw [Block.lineCount, shape_of_mem_formulaBlocks hblock]

/-! ## Brackets -/

def bracketEvents (events : List Event) : List Event :=
  events.filter fun event => event.mark = .bracketOpen ∨ event.mark = .bracketClose

/-- From an opening bracket to a closing one behind it. -/
structure Bracketed (events : List Event) (interval : Nat × Nat) : Prop where
  opens : ⟨.bracketOpen, interval.1⟩ ∈ events
  closes : ⟨.bracketClose, interval.2⟩ ∈ events
  lt : interval.1 < interval.2

/-- Bracketed intervals of which no two overlap. -/
structure BracketFamily (events : List Event) (family : Finset (Nat × Nat)) : Prop where
  bracketed : ∀ interval ∈ family, Bracketed events interval
  apart : (family : Set (Nat × Nat)).Pairwise fun a b => a.2 < b.1 ∨ b.2 < a.1

/-- Formulas of one line, in order and apart, each from an opening bracket to the first closing
one behind it. No family of intervals that are apart has more members. -/
structure BracketPairing (events : List Event) (found : List Block) : Prop where
  bracketed : ∀ block ∈ found, Bracketed events (block.start, block.stop)
  first : ∀ block ∈ found, ∀ position, ⟨.bracketClose, position⟩ ∈ events →
    block.start < position → block.stop ≤ position
  apart : found.Pairwise fun a b => a.stop < b.start
  unshared : found.Pairwise fun a b => [a.start, a.stop].Disjoint [b.start, b.stop]
  maximum : IsGreatest (Finset.card '' {family | BracketFamily events family}) found.length
  one_line : ∀ block ∈ found, block.lineCount = 1

section Brackets

variable {events : List Event}

theorem bracketed_of_mem_bracketBlocks (hevents : Increasing events) {block : Block}
    (h : block ∈ bracketBlocks events) :
    Bracketed events (block.start, block.stop) ∧
      ∀ position, ⟨.bracketClose, position⟩ ∈ events → block.start < position →
        block.stop ≤ position := by
  obtain ⟨region, hregion, rfl⟩ := List.mem_map.mp h
  obtain ⟨before, after, closer, rfl, hclosed⟩ := exists_append_of_mem_regions hregion
  obtain ⟨hopening, rfl⟩ := between_eq_some_iff.mp hclosed.opens
  refine ⟨⟨?_, ?_, hevents.bounds.opening_lt⟩, ?_⟩
  · exact Region.opening_mem hopening before after
  · exact Region.closing_mem hclosed.closes before after
  · intro position hmem hlt
    exact hclosed.closing_le hevents hmem rfl hlt

theorem bracketBlocks_apart (hevents : Increasing events) :
    (bracketBlocks events).Pairwise fun a b => a.stop < b.start :=
  List.pairwise_map.mpr (regions_apart hevents)

/-- The ends of the blocks, taken as intervals, are a family themselves. -/
theorem exists_bracketFamily (hevents : Increasing events) :
    ∃ family, BracketFamily events family ∧ family.card = (bracketBlocks events).length := by
  let ends (block : Block) : Nat × Nat := (block.start, block.stop)
  have hbracketed : ∀ interval ∈ (bracketBlocks events).map ends, Bracketed events interval := by
    intro interval hinterval
    obtain ⟨block, hblock, rfl⟩ := List.mem_map.mp hinterval
    exact (bracketed_of_mem_bracketBlocks hevents hblock).1
  have hapart : ((bracketBlocks events).map ends).Pairwise fun a b => a.2 < b.1 :=
    List.pairwise_map.mpr (bracketBlocks_apart hevents)
  have hnodup : ((bracketBlocks events).map ends).Nodup := by
    apply hapart.imp_of_mem
    rintro a b ha - hab rfl
    have hlt := (hbracketed a ha).lt
    omega
  refine ⟨((bracketBlocks events).map ends).toFinset, ⟨?_, ?_⟩, ?_⟩
  · simpa using hbracketed
  · have heither : ((bracketBlocks events).map ends).Pairwise fun a b => a.2 < b.1 ∨ b.2 < a.1 :=
      hapart.imp fun hab => Or.inl hab
    have hsymm : Std.Symm fun a b : Nat × Nat => a.2 < b.1 ∨ b.2 < a.1 := ⟨fun _ _ => Or.symm⟩
    intro a ha b hb hab
    exact heither.forall (List.mem_toFinset.mp ha) (List.mem_toFinset.mp hb) hab
  · rw [List.toFinset_card_of_nodup hnodup, List.length_map]

/-- Every bracketed interval has the end of a block in it, so that a family of intervals that are
apart has no more members than there are blocks. -/
theorem card_le_length_bracketBlocks (hevents : Increasing events) {family : Finset (Nat × Nat)}
    (h : BracketFamily events family) : family.card ≤ (bracketBlocks events).length := by
  let stops := ((bracketBlocks events).map (·.stop)).toFinset
  have hstops : stops.card ≤ (bracketBlocks events).length := by
    have hle := List.toFinset_card_le ((bracketBlocks events).map (·.stop))
    rwa [List.length_map] at hle
  refine Nat.le_trans (Finset.card_le_card_of_forall_subsingleton
    (fun interval stop => interval.1 ≤ stop ∧ stop ≤ interval.2) ?_ ?_) hstops
  · intro interval hinterval
    obtain ⟨hopening, hclosing, hlt⟩ := h.bracketed interval hinterval
    have hopens : brackets .bracketOpen = some ((), .bracketClose) := rfl
    obtain ⟨region, hregion, hle, hge⟩ := exists_region hevents hopening hopens hclosing rfl hlt
    have hblock : Block.ofRegion .bracket region ∈ bracketBlocks events :=
      List.mem_map_of_mem hregion
    obtain ⟨-, hfirst⟩ := bracketed_of_mem_bracketBlocks hevents hblock
    refine ⟨region.closing.position, ?_, hge, ?_⟩
    · exact List.mem_toFinset.mpr (List.mem_map_of_mem hblock)
    · exact hfirst interval.2 hclosing (Nat.lt_of_le_of_lt hle hlt)
  · rintro stop - a ⟨ha, hina⟩ b ⟨hb, hinb⟩
    apply h.apart.eq ha hb
    omega

theorem bracketPairing_bracketBlocks (hevents : Increasing events) :
    BracketPairing events (bracketBlocks events) := by
  have hapart := bracketBlocks_apart hevents
  refine ⟨?_, ?_, hapart, ?_, ⟨?_, ?_⟩, ?_⟩
  · intro block hblock
    exact (bracketed_of_mem_bracketBlocks hevents hblock).1
  · intro block hblock
    exact (bracketed_of_mem_bracketBlocks hevents hblock).2
  · apply hapart.imp_of_mem
    intro a b ha hb hab
    have hlt := (bracketed_of_mem_bracketBlocks hevents ha).1.lt
    have hlt' := (bracketed_of_mem_bracketBlocks hevents hb).1.lt
    intro position hina hinb
    simp only [List.mem_cons, List.not_mem_nil, or_false] at hina hinb hlt hlt'
    omega
  · exact exists_bracketFamily hevents
  · rintro _ ⟨family, hfamily, rfl⟩
    exact card_le_length_bracketBlocks hevents hfamily
  · intro block hblock
    rw [Block.lineCount, shape_of_mem_formulaBlocks hblock]

end Brackets

/-! ## The formulas of a text -/

theorem filter_shape_environmentBlocks {shape : Shape}
    (h : ∀ name lineBreaks, shape ≠ .environment name lineBreaks) (names : List String)
    (events : List Event) : (environmentBlocks names events).filter (·.shape = shape) = [] := by
  apply List.filter_eq_nil_iff.mpr
  intro block hblock hshape
  obtain ⟨region, -, rfl⟩ := List.mem_map.mp hblock
  exact h _ _ (of_decide_eq_true hshape).symm

theorem filter_shape_formulaBlocks (delimiter : Delimiter Unit) (shape other : Shape)
    (events : List Event) :
    (formulaBlocks delimiter shape events).filter (·.shape = other) =
      if shape = other then formulaBlocks delimiter shape events else [] := by
  by_cases h : shape = other
  · rw [if_pos h, List.filter_eq_self]
    intro block hblock
    simp [shape_of_mem_formulaBlocks hblock, h]
  · rw [if_neg h, List.filter_eq_nil_iff]
    intro block hblock
    simp [shape_of_mem_formulaBlocks hblock, h]

theorem filter_doubleDollar_blocks (names : List String) (events : List Event) :
    (blocks names events).filter (·.shape = .doubleDollar) = dollarBlocks events := by
  simp [blocks, dollarBlocks, bracketBlocks, filter_shape_formulaBlocks,
    filter_shape_environmentBlocks]

theorem filter_bracket_blocks (names : List String) (events : List Event) :
    (blocks names events).filter (·.shape = .bracket) = bracketBlocks events := by
  simp [blocks, dollarBlocks, bracketBlocks, filter_shape_formulaBlocks,
    filter_shape_environmentBlocks]

/-- Double dollars are joined two by two, brackets greedily and with as many formulas as can be.
Both searches see their own marks only, in whatever sequence of events. -/
theorem formulas_paired (names : List String) (text : String) :
    DollarPairing (events text)
        ((blocks names (events text)).filter (·.shape = .doubleDollar)) ∧
      BracketPairing (events text) ((blocks names (events text)).filter (·.shape = .bracket)) ∧
      (∀ sequence, dollarBlocks (dollarEvents sequence) = dollarBlocks sequence) ∧
      ∀ sequence, bracketBlocks (bracketEvents sequence) = bracketBlocks sequence := by
  rw [filter_doubleDollar_blocks, filter_bracket_blocks]
  exact ⟨dollarPairing_dollarBlocks _, bracketPairing_bracketBlocks (events_increasing text),
    formulaBlocks_filter (by simp) .doubleDollar, formulaBlocks_filter (by simp) .bracket⟩

end Galley.Display
