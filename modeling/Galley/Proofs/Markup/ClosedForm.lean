import Mathlib.Data.List.Sort
import Galley.Proofs.Markup.Boundary

/-! # Events by the characters around them -/

namespace Galley.Markup

open Comment

theorem mem_events_iff {text : String} {mark : Mark} {position : Nat} :
    ⟨mark, position⟩ ∈ events text ↔ ∃ length, ⟨position, length, .mark mark⟩ ∈ tokens text := by
  rw [events, List.mem_filterMap]
  constructor
  · rintro ⟨⟨start, length, value⟩, hmem, hevent⟩
    cases value with
    | escaped => cases hevent
    | mark found =>
        obtain ⟨rfl, rfl⟩ := Event.mk.inj (Option.some.inj hevent)
        exact ⟨length, hmem⟩
  · rintro ⟨length, hmem⟩
    exact ⟨_, hmem, rfl⟩

/-! ## Backslashes -/

/-- The mark that a backslash begins, by the characters behind it. -/
inductive Begins (cs : List Char) (position : Nat) : Mark → Prop where
  | lineBreak : cs[position + 1]? = some '\\' → Begins cs position .lineBreak
  | bracketOpen : cs[position + 1]? = some '[' → Begins cs position .bracketOpen
  | bracketClose : cs[position + 1]? = some ']' → Begins cs position .bracketClose
  | beginEnv {written : List Char} {name : String} : BracedName written name →
      "\\begin".toList ++ written <+: cs.drop position → Begins cs position (.beginEnv name)
  | endEnv {written : List Char} {name : String} : BracedName written name →
      "\\end".toList ++ written <+: cs.drop position → Begins cs position (.endEnv name)

variable {cs : List Char} {found : List (Occurrence Token)} {position : Nat}

theorem begins_iff_exists_stands (hslash : cs[position]? = some '\\') (mark : Mark) :
    Begins cs position mark ↔
      ∃ length, Grammar.StandsAt Token.Written cs position length (.mark mark) := by
  constructor
  · intro h
    cases h with
    | lineBreak hnext => exact ⟨2, _, .lineBreak, rfl, pair_prefix_drop_iff.mpr ⟨hslash, hnext⟩⟩
    | bracketOpen hnext =>
        exact ⟨2, _, .bracketOpen, rfl, pair_prefix_drop_iff.mpr ⟨hslash, hnext⟩⟩
    | bracketClose hnext =>
        exact ⟨2, _, .bracketClose, rfl, pair_prefix_drop_iff.mpr ⟨hslash, hnext⟩⟩
    | beginEnv hname hpre => exact ⟨_, _, .beginEnv hname, rfl, hpre⟩
    | endEnv hname hpre => exact ⟨_, _, .endEnv hname, rfl, hpre⟩
  · rintro ⟨length, written, hwritten, -, hpre⟩
    cases hwritten with
    | lineBreak => exact .lineBreak (pair_prefix_drop_iff.mp hpre).2
    | bracketOpen => exact .bracketOpen (pair_prefix_drop_iff.mp hpre).2
    | bracketClose => exact .bracketClose (pair_prefix_drop_iff.mp hpre).2
    | beginEnv hname => exact .beginEnv hname hpre
    | endEnv hname => exact .endEnv hname hpre
    | doubleDollar =>
        have hdollar := (pair_prefix_drop_iff.mp hpre).1
        rw [hslash] at hdollar
        simp at hdollar

/-- Outside of commands a backslash begins an event when an even number of backslashes stands
before it and a mark can be read there, whatever comes before. -/
theorem mem_events_backslash_iff {text : String} (hslash : text.toList[position]? = some '\\')
    (houtside : ¬ InsideCommand (tokens text) position) (mark : Mark) :
    ⟨mark, position⟩ ∈ events text ↔
      backslashesAtEnd (text.toList.take position) % 2 = 0 ∧ Begins text.toList position mark := by
  have hleft := (leftmost_tokens_iff text _).mpr rfl
  rw [mem_events_iff, begins_iff_exists_stands hslash]
  constructor
  · rintro ⟨length, hmem⟩
    exact ⟨even_backslashes_of_mem hleft _ hmem hslash, length, hleft.stands _ hmem⟩
  · rintro ⟨heven, length, hstands⟩
    have hreached := reached_backslash hleft hslash heven (.inl houtside)
    exact ⟨length,
      hleft.mem_of_reached Token.read_decides (Nat.zero_le position) hreached hstands⟩

/-! ## Dollars -/

/-- Dollars from `start` on, with no dollar before or behind them. -/
structure DollarRun (cs : List Char) (start count : Nat) : Prop where
  dollars : ∀ i < count, cs[start + i]? = some '$'
  before : ∀ last, start = last + 1 → cs[last]? ≠ some '$'
  behind : cs[start + count]? ≠ some '$'

namespace DollarRun

variable {start count : Nat}

/-- An odd number of backslashes before a run takes away its first dollar. -/
theorem escaped_mem (hrun : DollarRun cs start count) (h : Leftmost Token.Written cs 0 found)
    (hpos : 0 < count) (houtside : ¬ InsideCommand found start)
    (hodd : backslashesAtEnd (cs.take start) % 2 = 1) :
    ∃ last, start = last + 1 ∧ ⟨last, 2, .escaped⟩ ∈ found :=
  exists_escaped_mem h (.inl rfl) (hrun.dollars 0 hpos) hodd houtside

/-- With an even number of backslashes before it the search comes by at the first dollar. -/
theorem reached_start (hrun : DollarRun cs start count) (h : Leftmost Token.Written cs 0 found)
    (houtside : ¬ InsideCommand found start)
    (heven : backslashesAtEnd (cs.take start) % 2 = 0) : Reached found start := by
  intro token hmem hlt
  apply Nat.le_of_not_lt
  intro hstop
  cases TokenChars.of_stands (h.stands token hmem) with
  | command hcommand _ =>
      have hbehind := stop_le_of_not_insideCommand houtside hmem hcommand hlt
      omega
  | backslash htwo hfirst =>
      have hcount := backslashesAtEnd_take_succ hfirst
      have hfirstEven := even_backslashes_of_mem h token hmem hfirst
      rw [if_pos rfl, show token.position + 1 = start by omega] at hcount
      omega
  | dollars htwo hfirst _ => exact hrun.before token.position (by omega) hfirst

theorem pair_stands (hrun : DollarRun cs start count) {i : Nat} (hlt : i + 1 < count) :
    Grammar.StandsAt Token.Written cs (start + i) 2 (.mark .doubleDollar) :=
  ⟨_, .doubleDollar, rfl,
    pair_prefix_drop_iff.mpr ⟨hrun.dollars i (by omega), hrun.dollars (i + 1) hlt⟩⟩

/-- The dollars that are not escaped are consumed in pairs. -/
theorem reached_pair (hrun : DollarRun cs start count) (h : Leftmost Token.Written cs 0 found)
    (hpos : 0 < count) (houtside : ¬ InsideCommand found start) (i : Nat)
    (hle : backslashesAtEnd (cs.take start) % 2 + 2 * i ≤ count) :
    Reached found (start + (backslashesAtEnd (cs.take start) % 2 + 2 * i)) := by
  induction i with
  | zero =>
      rcases Nat.mod_two_eq_zero_or_one (backslashesAtEnd (cs.take start)) with heven | hodd
      · rw [heven]
        exact hrun.reached_start h houtside heven
      · obtain ⟨last, hlast, hmem⟩ := hrun.escaped_mem h hpos houtside hodd
        have hreached := h.reached_stop Token.read_decides.ne_nil hmem
        rw [hodd, hlast]
        exact hreached
  | succ i ih =>
      have hpair := h.mem_of_reached Token.read_decides (Nat.zero_le _) (ih (by omega))
        (hrun.pair_stands (by omega))
      exact h.reached_stop Token.read_decides.ne_nil hpair

theorem pair_mem (hrun : DollarRun cs start count) (h : Leftmost Token.Written cs 0 found)
    (houtside : ¬ InsideCommand found start) {i : Nat}
    (hi : i < (count - backslashesAtEnd (cs.take start) % 2) / 2) :
    ⟨start + (backslashesAtEnd (cs.take start) % 2 + 2 * i), 2, .mark .doubleDollar⟩ ∈ found :=
  h.mem_of_reached Token.read_decides (Nat.zero_le _)
    (hrun.reached_pair h (by omega) houtside i (by omega)) (hrun.pair_stands (by omega))

/-- No other two dollars of a run make a token. -/
theorem exists_pair_of_mem (hrun : DollarRun cs start count)
    (h : Leftmost Token.Written cs 0 found) (houtside : ¬ InsideCommand found start)
    {offset length : Nat} (hoffset : offset < count)
    (hmem : ⟨start + offset, length, .mark .doubleDollar⟩ ∈ found) :
    ∃ i < (count - backslashesAtEnd (cs.take start) % 2) / 2,
      offset = backslashesAtEnd (cs.take start) % 2 + 2 * i := by
  have hpos := h.position_lt_stop Token.read_decides.ne_nil hmem
  have hcovers : Occurrence.Covers ⟨start + offset, length, Token.mark .doubleDollar⟩
      (start + offset) := ⟨Nat.le_refl _, hpos⟩
  have hnext : offset + 1 < count := by
    obtain ⟨written, hwritten, -, hpre⟩ := h.stands _ hmem
    cases hwritten
    have hsecond := (pair_prefix_drop_iff.mp hpre).2
    have hlast : offset + 1 ≠ count := by
      rintro rfl
      exact hrun.behind hsecond
    omega
  have hfirst : backslashesAtEnd (cs.take start) % 2 ≤ offset := by
    apply Nat.le_of_not_lt
    intro hlt
    obtain ⟨last, hlast, hescaped⟩ := hrun.escaped_mem h (by omega) houtside (by omega)
    have hescapedCovers : Occurrence.Covers ⟨last, 2, Token.escaped⟩ (start + offset) :=
      ⟨by simp only; omega, by simp only [Occurrence.stop]; omega⟩
    cases h.eq_of_covers hescaped hmem hescapedCovers hcovers
  -- A pair from an odd offset would share a dollar with the pair before it.
  have heven : (offset - backslashesAtEnd (cs.take start) % 2) % 2 = 0 := by
    apply Classical.byContradiction
    intro hodd
    have hpair := hrun.pair_mem h houtside
      (i := (offset - backslashesAtEnd (cs.take start) % 2) / 2) (by omega)
    have hsame := h.eq_of_covers hpair hmem
      ⟨by simp only; omega, by simp only [Occurrence.stop]; omega⟩ hcovers
    have hposition := congrArg Occurrence.position hsame
    simp only at hposition
    omega
  exact ⟨(offset - backslashesAtEnd (cs.take start) % 2) / 2, by omega, by omega⟩

/-- A run is read in pairs from its first dollar on, or from the second when an odd number of
backslashes stands before it. -/
theorem map_position_events {text : String} (hrun : DollarRun text.toList start count)
    (houtside : ¬ InsideCommand (tokens text) start) :
    ((events text).filter fun event => event.mark = .doubleDollar ∧ start ≤ event.position ∧
        event.position < start + count).map (·.position) =
      (List.range ((count - backslashesAtEnd (text.toList.take start) % 2) / 2)).map
        fun i => start + (backslashesAtEnd (text.toList.take start) % 2 + 2 * i) := by
  have hleft := (leftmost_tokens_iff text _).mpr rfl
  have hevents : (((events text).filter fun event => event.mark = .doubleDollar ∧
      start ≤ event.position ∧ event.position < start + count).map (·.position)).Pairwise
        (· < ·) := by
    rw [List.pairwise_map]
    exact (events_increasing text).filter _
  have hrange : ((List.range ((count - backslashesAtEnd (text.toList.take start) % 2) / 2)).map
      fun i => start + (backslashesAtEnd (text.toList.take start) % 2 + 2 * i)).Pairwise
        (· < ·) := by
    rw [List.pairwise_map]
    apply List.pairwise_lt_range.imp
    intro i j hij
    omega
  apply hevents.eq_of_mem_iff hrange
  intro position
  simp only [List.mem_map, List.mem_filter, decide_eq_true_eq, List.mem_range]
  constructor
  · rintro ⟨⟨mark, position⟩, ⟨hmem, rfl, hle, hlt⟩, rfl⟩
    obtain ⟨length, htoken⟩ := mem_events_iff.mp hmem
    obtain ⟨offset, rfl⟩ := Nat.exists_eq_add_of_le hle
    have hoffset : offset < count := by
      simp only at hlt
      omega
    obtain ⟨i, hi, hindex⟩ := hrun.exists_pair_of_mem hleft houtside hoffset htoken
    exact ⟨i, hi, by rw [hindex]⟩
  · rintro ⟨i, hi, rfl⟩
    exact ⟨⟨.doubleDollar, _⟩,
      ⟨mem_events_iff.mpr ⟨2, hrun.pair_mem hleft houtside hi⟩, rfl, by simp, by simp only; omega⟩,
      rfl⟩

end DollarRun

/-- Which events a text has outside of commands is decided on the spot. At a backslash it depends
on the number of backslashes right before it and on what can be read from it on. A run of dollars
is read in pairs, from the second dollar on when the first is escaped. -/
theorem events_closed_form (text : String) :
    (∀ position, text.toList[position]? = some '\\' → ¬ InsideCommand (tokens text) position →
        ∀ mark, ⟨mark, position⟩ ∈ events text ↔
          backslashesAtEnd (text.toList.take position) % 2 = 0 ∧
            Begins text.toList position mark) ∧
      ∀ start count, DollarRun text.toList start count → ¬ InsideCommand (tokens text) start →
        ((events text).filter fun event => event.mark = .doubleDollar ∧
            start ≤ event.position ∧ event.position < start + count).map (·.position) =
          (List.range ((count - backslashesAtEnd (text.toList.take start) % 2) / 2)).map
            fun i => start + (backslashesAtEnd (text.toList.take start) % 2 + 2 * i) := by
  constructor
  · intro position hslash houtside mark
    exact mem_events_backslash_iff hslash houtside mark
  · intro start count hrun houtside
    exact hrun.map_position_events houtside

example : events "\\\\\\[ \\$$$$" =
    [⟨.lineBreak, 0⟩, ⟨.bracketOpen, 2⟩, ⟨.doubleDollar, 7⟩] := by
  decide

end Galley.Markup
