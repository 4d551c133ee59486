import Galley.Proofs.Comment.Lines
import Galley.Proofs.Markup.Grammar

/-! # Where tokens begin in a run of backslashes -/

namespace Galley

/-! ## Characters at a position -/

theorem getElem?_of_prefix_drop {α : Type} {written list : List α} {position i : Nat}
    (h : written <+: list.drop position) (hi : i < written.length) :
    list[position + i]? = written[i]? := by
  obtain ⟨rest, hrest⟩ := h
  rw [← List.getElem?_drop, ← hrest, List.getElem?_append_left hi]

theorem pair_prefix_drop_iff {α : Type} {list : List α} {position : Nat} {a b : α} :
    [a, b] <+: list.drop position ↔ list[position]? = some a ∧ list[position + 1]? = some b := by
  constructor
  · intro h
    exact ⟨getElem?_of_prefix_drop h (Nat.zero_lt_two), getElem?_of_prefix_drop h Nat.one_lt_two⟩
  · rintro ⟨ha, hb⟩
    obtain ⟨hlt, rfl⟩ := List.getElem?_eq_some_iff.mp ha
    obtain ⟨hlt', rfl⟩ := List.getElem?_eq_some_iff.mp hb
    rw [List.drop_eq_getElem_cons hlt, List.drop_eq_getElem_cons hlt']
    exact ⟨_, rfl⟩

namespace Comment

theorem backslashesAtEnd_take_succ {cs : List Char} {position : Nat} {c : Char}
    (h : cs[position]? = some c) :
    backslashesAtEnd (cs.take (position + 1)) =
      if c = '\\' then backslashesAtEnd (cs.take position) + 1 else 0 := by
  rw [List.take_add_one, h]
  exact backslashesAtEnd_append _ c

/-- An odd number of backslashes has a last one, with an even number before it. -/
theorem exists_backslash_of_odd {cs : List Char} {position : Nat} (hle : position ≤ cs.length)
    (hodd : backslashesAtEnd (cs.take position) % 2 = 1) :
    ∃ last, position = last + 1 ∧ cs[last]? = some '\\' ∧
      backslashesAtEnd (cs.take last) % 2 = 0 := by
  cases position with
  | zero => simp [backslashesAtEnd] at hodd
  | succ last =>
      have hchar : cs[last]? = some cs[last] := List.getElem?_eq_getElem hle
      rw [backslashesAtEnd_take_succ hchar] at hodd
      split at hodd
      next hslash => exact ⟨last, rfl, by rw [hchar, hslash], by omega⟩
      next => cases hodd

end Comment

namespace Markup

open Comment

/-! ## Characters of tokens -/

/-- A begin or an end, which carry a name. -/
def Token.IsCommand : Token → Prop
  | .mark (.beginEnv _) | .mark (.endEnv _) => True
  | _ => False

/-- The position is behind the first character of a begin or an end. -/
def InsideCommand (found : List (Occurrence Token)) (position : Nat) : Prop :=
  ∃ token ∈ found, token.value.IsCommand ∧ token.position < position ∧ position < token.stop

/-- A command is written with its name between two braces. Nothing before them is a percent
sign. -/
theorem Token.Written.exists_braces {written : List Char} {token : Token}
    (h : Written written token) (hcommand : token.IsCommand) :
    ∃ front raw, written = front ++ '{' :: (raw ++ ['}']) ∧ front ≠ [] ∧ '%' ∉ front := by
  have hbraces : ∀ {command name : List Char} {label : String}, command ≠ [] → '%' ∉ command →
      BracedName name label →
      ∃ front raw, command ++ name = front ++ '{' :: (raw ++ ['}']) ∧ front ≠ [] ∧
        '%' ∉ front := by
    rintro command name label hne hpercent ⟨blanks, left, right, rfl, hblanks, -⟩
    refine ⟨command ++ blanks, left ++ label.toList ++ right, by simp, by simp [hne], ?_⟩
    intro hmem
    rcases List.mem_append.mp hmem with hmem | hmem
    · exact hpercent hmem
    · exact absurd (hblanks '%' hmem) (by decide)
  cases h with
  | beginEnv hname => exact hbraces (by simp) (by decide) hname
  | endEnv hname => exact hbraces (by simp) (by decide) hname
  | lineBreak => exact absurd hcommand id
  | escaped _ => exact absurd hcommand id
  | bracketOpen => exact absurd hcommand id
  | bracketClose => exact absurd hcommand id
  | doubleDollar => exact absurd hcommand id

variable {cs : List Char} {found : List (Occurrence Token)}

/-- Where a command stands, its braces can be read in the text. -/
theorem exists_braces_of_stands {token : Occurrence Token}
    (h : Grammar.StandsAt Token.Written cs token.position token.length token.value)
    (hcommand : token.value.IsCommand) :
    ∃ front raw : List Char, '%' ∉ front ∧ front ≠ [] ∧
      token.stop = token.position + front.length + raw.length + 2 ∧
      (front ++ '{' :: (raw ++ ['}'])) <+: cs.drop token.position := by
  obtain ⟨written, hwritten, hlength, hpre⟩ := h
  obtain ⟨front, raw, rfl, hne, hpercent⟩ := hwritten.exists_braces hcommand
  refine ⟨front, raw, hpercent, hne, ?_, hpre⟩
  simp only [List.length_append, List.length_cons, List.length_nil] at hlength
  simp only [Occurrence.stop]
  omega

theorem closing_of_stands {token : Occurrence Token}
    (h : Grammar.StandsAt Token.Written cs token.position token.length token.value)
    (hcommand : token.value.IsCommand) : cs[token.stop - 1]? = some '}' := by
  obtain ⟨front, raw, -, -, hstop, hpre⟩ := exists_braces_of_stands h hcommand
  rw [show token.stop - 1 = token.position + (front.length + (raw.length + 1)) by omega,
    getElem?_of_prefix_drop hpre (by simp), List.getElem?_append_right (by omega)]
  simp

/-- A command ends with a brace. The other tokens have two characters, a backslash and a sign or
two dollars. -/
inductive TokenChars (cs : List Char) (token : Occurrence Token) : Prop where
  | command : token.value.IsCommand → cs[token.stop - 1]? = some '}' → TokenChars cs token
  | backslash : token.stop = token.position + 2 → cs[token.position]? = some '\\' →
      TokenChars cs token
  | dollars : token.stop = token.position + 2 → cs[token.position]? = some '$' →
      cs[token.position + 1]? = some '$' → TokenChars cs token

theorem TokenChars.of_stands {token : Occurrence Token}
    (h : Grammar.StandsAt Token.Written cs token.position token.length token.value) :
    TokenChars cs token := by
  have hclosing := closing_of_stands h
  obtain ⟨position, length, value⟩ := token
  obtain ⟨written, hwritten, rfl, hpre⟩ := h
  have htwo : ∀ {sign : Char}, ['\\', sign] <+: cs.drop position →
      TokenChars cs ⟨position, 2, value⟩ := by
    intro sign hpre
    exact .backslash rfl (pair_prefix_drop_iff.mp hpre).1
  cases hwritten with
  | lineBreak => exact htwo hpre
  | escaped _ => exact htwo hpre
  | bracketOpen => exact htwo hpre
  | bracketClose => exact htwo hpre
  | beginEnv _ => exact .command trivial (hclosing trivial)
  | endEnv _ => exact .command trivial (hclosing trivial)
  | doubleDollar =>
      obtain ⟨hfirst, hsecond⟩ := pair_prefix_drop_iff.mp hpre
      exact .dollars rfl hfirst hsecond

/-! ## Parity -/

/-- Every pair of backslashes is a token of its own. So the search comes by at a backslash with an
even number of backslashes before it, as long as tokens before it began at such backslashes too
and no command goes on behind it. -/
theorem reached_of_even_before (h : Leftmost Token.Written cs 0 found) {position : Nat}
    (hslash : cs[position]? = some '\\') (heven : backslashesAtEnd (cs.take position) % 2 = 0)
    (hbefore : ∀ token ∈ found, token.position < position → cs[token.position]? = some '\\' →
      backslashesAtEnd (cs.take token.position) % 2 = 0)
    (hcommand : ∀ token ∈ found, token.value.IsCommand → token.position < position →
      token.stop ≤ position + 1) : Reached found position := by
  intro token hmem hlt
  apply Nat.le_of_not_lt
  intro hstop
  cases TokenChars.of_stands (h.stands token hmem) with
  | command hname hbrace =>
      have hlast := hcommand token hmem hname hlt
      rw [show token.stop - 1 = position by omega, hslash] at hbrace
      simp at hbrace
  | backslash htwo hfirst =>
      have hcount := backslashesAtEnd_take_succ hfirst
      have hfirstEven := hbefore token hmem hlt hfirst
      rw [if_pos rfl, show token.position + 1 = position by omega] at hcount
      omega
  | dollars htwo _ hsecond =>
      rw [show token.position + 1 = position by omega, hslash] at hsecond
      simp at hsecond

/-- A token that begins with a backslash has an even number of backslashes before it. -/
theorem even_backslashes_of_mem (h : Leftmost Token.Written cs 0 found) :
    ∀ token ∈ found, cs[token.position]? = some '\\' →
      backslashesAtEnd (cs.take token.position) % 2 = 0 := by
  have hall : ∀ position, ∀ token ∈ found, token.position = position →
      cs[position]? = some '\\' → backslashesAtEnd (cs.take position) % 2 = 0 := by
    intro position
    induction position using Nat.strongRecOn with
    | ind position ih =>
        intro token hmem heq hslash
        apply Classical.byContradiction
        intro hodd
        have hlength : position < cs.length := (List.getElem?_eq_some_iff.mp hslash).1
        obtain ⟨last, rfl, hlast, heven⟩ :=
          exists_backslash_of_odd (Nat.le_of_lt hlength) (by omega)
        have hcovers : token.Covers (last + 1) :=
          ⟨by omega, heq ▸ h.position_lt_stop Token.read_decides.ne_nil hmem⟩
        -- The backslash before the token would make a pair with its first character.
        have hreached : Reached found last := by
          refine reached_of_even_before h hlast heven ?_ ?_
          · intro other hother hlt hfirst
            exact ih other.position (by omega) other hother rfl hfirst
          · intro other hother _ hlt
            apply Nat.le_of_not_lt
            intro hstop
            have hsame := h.eq_of_covers hother hmem ⟨by omega, hstop⟩ hcovers
            rw [hsame] at hlt
            omega
        have hpair := h.mem_of_reached Token.read_decides (Nat.zero_le last) hreached
          ⟨_, .lineBreak, rfl, pair_prefix_drop_iff.mpr ⟨hlast, hslash⟩⟩
        have hpairCovers : Occurrence.Covers ⟨last, 2, Token.mark .lineBreak⟩ (last + 1) :=
          ⟨by simp, by simp [Occurrence.stop]⟩
        have hsame := h.eq_of_covers hpair hmem hpairCovers hcovers
        rw [← hsame] at heq
        simp at heq
  intro token hmem hslash
  exact hall token.position token hmem rfl hslash

theorem stop_le_of_not_insideCommand {position : Nat} (houtside : ¬ InsideCommand found position)
    {token : Occurrence Token} (hmem : token ∈ found) (hcommand : token.value.IsCommand)
    (hlt : token.position < position) : token.stop ≤ position := by
  apply Nat.le_of_not_lt
  intro hstop
  exact houtside ⟨token, hmem, hcommand, hlt, hstop⟩

/-- Outside of commands the search comes by at every backslash with an even number of backslashes
before it. -/
theorem reached_backslash (h : Leftmost Token.Written cs 0 found) {position : Nat}
    (hslash : cs[position]? = some '\\') (heven : backslashesAtEnd (cs.take position) % 2 = 0)
    (houtside : ¬ InsideCommand found position ∨ ¬ InsideCommand found (position + 1)) :
    Reached found position := by
  refine reached_of_even_before h hslash heven ?_ ?_
  · intro token hmem _
    exact even_backslashes_of_mem h token hmem
  · intro token hmem hcommand hlt
    rcases houtside with hhere | hbehind
    · exact Nat.le_succ_of_le (stop_le_of_not_insideCommand hhere hmem hcommand hlt)
    · exact stop_le_of_not_insideCommand hbehind hmem hcommand (Nat.lt_succ_of_lt hlt)

/-- A dollar or a percent sign with an odd number of backslashes before it is escaped, unless a
command goes on there. -/
theorem exists_escaped_mem (h : Leftmost Token.Written cs 0 found) {position : Nat} {sign : Char}
    (hsign : sign = '$' ∨ sign = '%') (hat : cs[position]? = some sign)
    (hodd : backslashesAtEnd (cs.take position) % 2 = 1)
    (houtside : ¬ InsideCommand found position) :
    ∃ first, position = first + 1 ∧ ⟨first, 2, .escaped⟩ ∈ found := by
  have hlength : position < cs.length := (List.getElem?_eq_some_iff.mp hat).1
  obtain ⟨first, rfl, hslash, heven⟩ := exists_backslash_of_odd (Nat.le_of_lt hlength) hodd
  have hreached := reached_backslash h hslash heven (.inr houtside)
  exact ⟨first, rfl, h.mem_of_reached Token.read_decides (Nat.zero_le first) hreached
    ⟨_, .escaped hsign, rfl, pair_prefix_drop_iff.mpr ⟨hslash, hat⟩⟩⟩

end Markup

end Galley
