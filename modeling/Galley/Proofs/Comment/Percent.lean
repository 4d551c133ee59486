import Galley.Proofs.Markup.Boundary
import Galley.Text.Braced

/-! # Percent signs of a stripped text -/

namespace Galley

namespace Comment

/-- Every percent sign that stripping leaves has an odd number of backslashes before it. The
induction is over the text that is still to be stripped, with the text in front of it. -/
theorem odd_backslashes_of_percent (place : Place) (before cs : List Char)
    (hplace : place = .comment ∨ place = placeAfter before) (i : Nat)
    (h : (stripFrom place cs)[i]? = some '%') :
    backslashesAtEnd (before ++ (stripFrom place cs).take i) % 2 = 1 := by
  induction cs generalizing place before i with
  | nil => simp [stripFrom] at h
  | cons c cs ih =>
      -- A kept character that is no free percent sign is passed to the text in front.
      have hkept : ∀ next, next = placeAfter (before ++ [c]) →
          stripFrom place (c :: cs) = c :: stripFrom next cs →
          (c = '%' → backslashesAtEnd before % 2 = 1) →
          backslashesAtEnd (before ++ (stripFrom place (c :: cs)).take i) % 2 = 1 := by
        intro next hnext hstrip hescaped
        rw [hstrip] at h ⊢
        cases i with
        | zero => simpa using hescaped (by simpa using h)
        | succ i =>
            have hrest := ih next (before ++ [c]) (.inr hnext) i (by simpa using h)
            simpa [List.append_assoc] using hrest
      by_cases hcomment : place = .comment
      · subst hcomment
        by_cases hend : isLineEnd c = true
        · have hslash : c ≠ '\\' := by
            rintro rfl
            revert hend
            decide
          refine hkept .even ?_ (by simp [stripFrom, hend]) ?_
          · simp [placeAfter, backslashesAtEnd_append, hslash]
          · rintro rfl
            exact absurd hend (by decide)
        · have hstrip : stripFrom .comment (c :: cs) = stripFrom .comment cs := by
            simp [stripFrom, hend]
          rw [hstrip] at h ⊢
          exact ih .comment before (.inl rfl) i h
      · have hafter : place = placeAfter before := hplace.resolve_left hcomment
        by_cases hopens : c = '%' ∧ backslashesAtEnd before % 2 = 0
        · obtain ⟨rfl, heven⟩ := hopens
          have hstrip : stripFrom place ('%' :: cs) = stripFrom .comment cs := by
            simp [hafter, placeAfter, heven, stripFrom]
          rw [hstrip] at h ⊢
          exact ih .comment before (.inl rfl) i h
        · refine hkept _ rfl (hafter ▸ stripFrom_placeAfter_cons cs hopens) ?_
          rintro rfl
          have hodd : ¬ backslashesAtEnd before % 2 = 0 := fun heven => hopens ⟨rfl, heven⟩
          omega

theorem odd_backslashes_strip {text : String} {position : Nat}
    (h : (strip text).toList[position]? = some '%') :
    backslashesAtEnd ((strip text).toList.take position) % 2 = 1 := by
  rw [toList_strip] at h ⊢
  exact odd_backslashes_of_percent .even [] text.toList (.inr rfl) position h

theorem backslashesAtEnd_append_of_getLast? {front : List Char} (h : front.getLast? ≠ some '\\')
    (cs : List Char) : backslashesAtEnd (front ++ cs) = backslashesAtEnd cs := by
  have hfront : front.reverse.takeWhile (· == '\\') = [] := by
    cases hreverse : front.reverse with
    | nil => rfl
    | cons c rest =>
        rw [← List.head?_reverse, hreverse] at h
        have hc : c ≠ '\\' := by simpa using h
        simp [hc]
  simp only [backslashesAtEnd, List.reverse_append, List.takeWhile_append, hfront,
    List.append_nil]
  split
  next hall => rw [(List.takeWhile_prefix _).eq_of_length hall]
  next => rfl

/-- What is cut out of a stripped text right behind anything but a backslash has nothing in it to
be stripped. -/
theorem strip_of_cut {text body : String} {front back : List Char}
    (h : (strip text).toList = front ++ body.toList ++ back)
    (hlast : front.getLast? ≠ some '\\') : strip body = body := by
  apply String.toList_injective
  rw [toList_strip]
  apply stripFrom_even_of_not_opensComment
  rintro position ⟨hpercent, heven⟩
  obtain ⟨hlt, -⟩ := List.getElem?_eq_some_iff.mp hpercent
  have hinside : (strip text).toList[front.length + position]? = some '%' := by
    rw [h, List.append_assoc, List.getElem?_append_right (Nat.le_add_right ..),
      Nat.add_sub_cancel_left, List.getElem?_append_left hlt, hpercent]
  have hbefore : (strip text).toList.take (front.length + position) =
      front ++ body.toList.take position := by
    rw [h, List.append_assoc, List.take_length_add_append,
      List.take_append_of_le_length (Nat.le_of_lt hlt)]
  have hodd := odd_backslashes_strip hinside
  rw [hbefore, backslashesAtEnd_append_of_getLast? hlast] at hodd
  omega

end Comment

namespace Markup

open Comment

/-- The position is in a begin or an end, between the opening brace and the closing one. -/
def BetweenBraces (cs : List Char) (token : Occurrence Token) (position : Nat) : Prop :=
  token.value.IsCommand ∧ ∃ brace, token.position < brace ∧ cs[brace]? = some '{' ∧
    brace < position ∧ position + 1 < token.stop ∧ cs[token.stop - 1]? = some '}'

theorem between_of_getElem?_eq_percent {front raw : List Char} {i : Nat} (hfront : '%' ∉ front)
    (h : (front ++ '{' :: (raw ++ ['}']))[i]? = some '%') :
    front.length < i ∧ i < front.length + 1 + raw.length := by
  rw [List.getElem?_append] at h
  split at h
  next hlt => exact absurd (List.mem_of_getElem? h) hfront
  next hle =>
    cases hindex : i - front.length with
    | zero => simp [hindex] at h
    | succ n =>
        rw [hindex, List.getElem?_cons_succ, List.getElem?_append] at h
        split at h
        next hraw => omega
        next hraw =>
          have hmem := List.mem_of_getElem? h
          simp at hmem

/-- A percent sign in a command is part of its name. -/
theorem betweenBraces_of_percent {cs : List Char} {token : Occurrence Token} {position : Nat}
    (hstands : Grammar.StandsAt Token.Written cs token.position token.length token.value)
    (hcommand : token.value.IsCommand) (hlt : token.position < position)
    (hstop : position < token.stop) (hpercent : cs[position]? = some '%') :
    BetweenBraces cs token position := by
  have hclosing := closing_of_stands hstands hcommand
  obtain ⟨front, raw, hfront, hne, hlength, hpre⟩ := exists_braces_of_stands hstands hcommand
  have hpos : 0 < front.length := List.length_pos_iff.mpr hne
  have hchar := getElem?_of_prefix_drop hpre (i := position - token.position) (by
    simp only [List.length_append, List.length_cons, List.length_nil]
    omega)
  rw [Nat.add_sub_of_le (Nat.le_of_lt hlt), hpercent] at hchar
  obtain ⟨hbrace, hraw⟩ := between_of_getElem?_eq_percent hfront hchar.symm
  refine ⟨hcommand, token.position + front.length, by omega, ?_, by omega, by omega, hclosing⟩
  rw [getElem?_of_prefix_drop hpre (by simp), List.getElem?_append_right (Nat.le_refl _),
    Nat.sub_self]
  rfl

/-- No percent sign of a stripped text is left loose: each is the second character of an escaped
sign that the scan comes upon, or part of a name in braces. -/
theorem percent_escaped_or_betweenBraces (text : String) (position : Nat)
    (h : (strip text).toList[position]? = some '%') :
    (∃ first, position = first + 1 ∧ ⟨first, 2, .escaped⟩ ∈ tokens (strip text)) ∨
      ∃ token ∈ tokens (strip text), BetweenBraces (strip text).toList token position := by
  have hleft := (leftmost_tokens_iff (strip text) _).mpr rfl
  by_cases hinside : InsideCommand (tokens (strip text)) position
  · right
    obtain ⟨token, hmem, hcommand, hlt, hstop⟩ := hinside
    exact ⟨token, hmem,
      betweenBraces_of_percent (hleft.stands token hmem) hcommand hlt hstop h⟩
  · left
    exact exists_escaped_mem hleft (.inr rfl) h (odd_backslashes_strip h) hinside

/-- A percent sign behind a line break, an escaped one and one in a name. -/
def percentSigns : String :=
  "\\\\% gone\n100\\% \\begin" ++ Text.braced "a\\%b"

theorem percentSigns_escaped_or_betweenBraces :
    strip percentSigns = "\\\\\n100\\% \\begin" ++ Text.braced "a\\%b" ∧
      (strip percentSigns).toList[18]? = some '%' ∧
      ((∃ first, 18 = first + 1 ∧ ⟨first, 2, .escaped⟩ ∈ tokens (strip percentSigns)) ∨
        ∃ token ∈ tokens (strip percentSigns),
          BetweenBraces (strip percentSigns).toList token 18) :=
  ⟨by decide +kernel, by decide +kernel,
    percent_escaped_or_betweenBraces percentSigns 18 (by decide +kernel)⟩

end Markup

end Galley
