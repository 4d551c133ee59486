import Mathlib
import Galley.Proofs.Cut
import Galley.Proofs.Text.Blank
import Galley.WordCounter

/-!
# The sum in an output of the word counter

The first sum in an output is read with all its digits, of whatever block they are. Anything before
it that is like a sum, but has no digit, does not count.
-/

namespace Galley.WordCounter

/-- A sum as it is written. -/
def writtenSum (before after : Char) (digits : List Char) : List Char :=
  "Sum".toList ++ before :: ("count:".toList ++ after :: digits)

/-- A sum can be read from a text that begins with one, up to its first digit. -/
def BeginsSum (text : List Char) : Prop :=
  ∃ before after digit, Text.isBlank before = true ∧ Text.isBlank after = true ∧
    Text.isDigit digit = true ∧ writtenSum before after [digit] <+: text

/-- A sum can be read somewhere in a text. -/
def HoldsSum (text : List Char) : Prop :=
  ∃ front rest, text = front ++ rest ∧ BeginsSum rest

/-- The digits of the first sum in an output: behind a text that holds none, and up to the first
character that is no digit. -/
inductive FirstSum (digits : List Char) : List Char → Prop where
  | sum {front rest : List Char} {before after : Char} : ¬ HoldsSum front →
      Text.isBlank before = true → Text.isBlank after = true → digits ≠ [] →
      (∀ c ∈ digits, Text.isDigit c = true) → (∀ c ∈ rest.head?, Text.isDigit c = false) →
      FirstSum digits (front ++ (writtenSum before after digits ++ rest))

/-- What is read from an output. -/
inductive Reads (output : List Char) : Except Failure Nat → Prop where
  | missing : ¬ HoldsSum output → Reads output (.error (.mismatch .missingSum))
  | tooLong {digits : List Char} : FirstSum digits output → Text.digitLimit < digits.length →
      Reads output (.error (.fault (.tooManyDigitsRead digits.length)))
  | sum {digits : List Char} {n : Nat} : FirstSum digits output →
      digits.length ≤ Text.digitLimit → Text.Denotes digits n → Reads output (.ok n)

/-! ## Reading at one place -/

theorem length_writtenSum (before after : Char) (digits : List Char) :
    (writtenSum before after digits).length = digits.length + 11 := by
  simp [writtenSum]

theorem readSum_writtenSum {before after : Char} {digits rest : List Char}
    (hbefore : Text.isBlank before = true) (hafter : Text.isBlank after = true)
    (hne : digits ≠ []) (hdigits : ∀ c ∈ digits, Text.isDigit c = true)
    (hrest : ∀ c ∈ rest.head?, Text.isDigit c = false) :
    readSum (writtenSum before after digits ++ rest) = some (digits, digits.length + 11) := by
  let afterCount := after :: (digits ++ rest)
  let afterSum := before :: ("count:".toList ++ afterCount)
  have hsum : "Sum".toList.isPrefixOf? ("Sum".toList ++ afterSum) = some afterSum :=
    List.isPrefixOf?_eq_some_iff_append_eq.mpr rfl
  have hcount : "count:".toList.isPrefixOf? ("count:".toList ++ afterCount) = some afterCount :=
    List.isPrefixOf?_eq_some_iff_append_eq.mpr rfl
  have hblank : Text.blank? afterSum = some _ := Text.blank?_eq_some_iff.mpr ⟨before, hbefore, rfl⟩
  have hblank' : Text.blank? afterCount = some _ := Text.blank?_eq_some_iff.mpr ⟨after, hafter, rfl⟩
  have hrun : (digits ++ rest).takeWhile Text.isDigit = digits :=
    takeWhile_append_of_head? hdigits hrest
  have htext : writtenSum before after digits ++ rest = "Sum".toList ++ afterSum := by
    simp [writtenSum, afterSum, afterCount]
  rw [htext, readSum, hsum]
  simp only [Option.bind_eq_bind, Option.bind_some, hblank, hcount, hblank', hrun]
  simp [hne]

theorem exists_writtenSum_of_readSum {cs digits : List Char} {length : Nat}
    (h : readSum cs = some (digits, length)) :
    ∃ before after rest, Text.isBlank before = true ∧ Text.isBlank after = true ∧ digits ≠ [] ∧
      (∀ c ∈ digits, Text.isDigit c = true) ∧ (∀ c ∈ rest.head?, Text.isDigit c = false) ∧
      cs = writtenSum before after digits ++ rest := by
  obtain ⟨afterSum, hsum, h⟩ := Option.bind_eq_some_iff.mp h
  obtain ⟨_, hbefore, h⟩ := Option.bind_eq_some_iff.mp h
  obtain ⟨afterCount, hcount, h⟩ := Option.bind_eq_some_iff.mp h
  obtain ⟨behind, hafter, h⟩ := Option.bind_eq_some_iff.mp h
  obtain ⟨hne, hdigits⟩ := Option.ite_none_left_eq_some.mp h
  obtain ⟨rfl, -⟩ := Prod.mk.inj (Option.some.inj hdigits)
  obtain rfl := List.isPrefixOf?_eq_some_iff_append_eq.mp hsum
  obtain ⟨before, hblank, rfl⟩ := Text.blank?_eq_some_iff.mp hbefore
  obtain rfl := List.isPrefixOf?_eq_some_iff_append_eq.mp hcount
  obtain ⟨after, hblank', rfl⟩ := Text.blank?_eq_some_iff.mp hafter
  refine ⟨before, after, behind.dropWhile Text.isDigit, hblank, hblank', by simpa using hne,
    fun c hc => List.mem_takeWhile_imp hc, eq_false_of_mem_head?_dropWhile _ behind, ?_⟩
  simp [writtenSum, List.takeWhile_append_dropWhile]

/-- Reading fails where no sum begins, and takes all the digits of one that does. -/
theorem readSum_eq_none_iff {cs : List Char} : readSum cs = none ↔ ¬ BeginsSum cs := by
  rw [Option.eq_none_iff_forall_ne_some, ← not_exists, not_iff_not]
  constructor
  · rintro ⟨⟨digits, length⟩, hread⟩
    obtain ⟨before, after, rest, hbefore, hafter, hne, hdigits, -, rfl⟩ :=
      exists_writtenSum_of_readSum hread
    obtain ⟨digit, digits, rfl⟩ := List.exists_cons_of_ne_nil hne
    exact ⟨before, after, digit, hbefore, hafter, hdigits digit List.mem_cons_self,
      digits ++ rest, by simp [writtenSum]⟩
  · rintro ⟨before, after, digit, hbefore, hafter, hdigit, behind, rfl⟩
    let digits := digit :: behind.takeWhile Text.isDigit
    have hdigits : ∀ c ∈ digits, Text.isDigit c = true := by
      intro c hc
      rcases List.mem_cons.mp hc with rfl | hc
      · exact hdigit
      · exact List.mem_takeWhile_imp hc
    have htext : writtenSum before after [digit] ++ behind =
        writtenSum before after digits ++ behind.dropWhile Text.isDigit := by
      simp [writtenSum, digits, List.takeWhile_append_dropWhile]
    rw [htext]
    exact ⟨_, readSum_writtenSum hbefore hafter (by simp [digits]) hdigits
      (eq_false_of_mem_head?_dropWhile _ behind)⟩

/-! ## Finding the first sum -/

theorem BeginsSum.append {text : List Char} (h : BeginsSum text) (back : List Char) :
    BeginsSum (text ++ back) := by
  obtain ⟨before, after, digit, hbefore, hafter, hdigit, hprefix⟩ := h
  exact ⟨before, after, digit, hbefore, hafter, hdigit, hprefix.trans (List.prefix_append ..)⟩

/-- The letter that a sum begins with comes nowhere else in it, so that a sum cannot reach from the
text in front into the next one. -/
theorem BeginsSum.of_append_cons {text back : List Char} (hne : text ≠ [])
    (h : BeginsSum (text ++ 'S' :: back)) : BeginsSum text := by
  obtain ⟨before, after, digit, hbefore, hafter, hdigit, hprefix⟩ := h
  obtain ⟨c, text, rfl⟩ := List.exists_cons_of_ne_nil hne
  refine ⟨before, after, digit, hbefore, hafter, hdigit, ?_⟩
  have hletter : 'S' ∉ 'u' :: 'm' :: before :: ("count:".toList ++ [after, digit]) := by
    have hblank : ∀ d, Text.isBlank d = true → 'S' ≠ d := by
      rintro d hd rfl
      revert hd
      decide
    have hne : 'S' ≠ digit := by
      rintro rfl
      revert hdigit
      decide
    simp [hblank before hbefore, hblank after hafter, hne]
  obtain ⟨rfl, hrest⟩ := List.cons_prefix_cons.mp hprefix
  exact List.cons_prefix_cons.mpr ⟨rfl, prefix_of_prefix_append_cons hletter hrest⟩

theorem readings_append_of_not_holdsSum {front back : List Char} (h : ¬ HoldsSum front)
    (hback : back = [] ∨ ∃ rest, back = 'S' :: rest) :
    readings readSum (front ++ back) = readings readSum back := by
  apply readings_append_of_none
  rintro suffix hne ⟨before, rfl⟩
  rw [readSum_eq_none_iff]
  intro hbegins
  apply h
  rcases hback with rfl | ⟨rest, rfl⟩
  · exact ⟨before, suffix, rfl, by simpa using hbegins⟩
  · exact ⟨before, suffix, rfl, hbegins.of_append_cons hne⟩

theorem readings_eq_nil {output : List Char} (h : ¬ HoldsSum output) :
    readings readSum output = [] := by
  simpa [readings, occurrences, occurrencesFrom] using readings_append_of_not_holdsSum h (.inl rfl)

theorem FirstSum.head?_readings {digits output : List Char} (h : FirstSum digits output) :
    (readings readSum output).head? = some digits := by
  obtain @⟨front, rest, before, after, hfront, hbefore, hafter, hne, hdigits, hrest⟩ := h
  have hread := readSum_writtenSum hbefore hafter hne hdigits hrest
  rw [← length_writtenSum before after digits] at hread
  have hreadings : readings readSum (front ++ (writtenSum before after digits ++ rest)) =
      readings readSum (writtenSum before after digits ++ rest) :=
    readings_append_of_not_holdsSum hfront (.inr ⟨_, rfl⟩)
  rw [hreadings, readings_append_of_some (by simp [writtenSum]) hread, List.head?_cons]

theorem not_holdsSum_nil : ¬ HoldsSum [] := by
  rintro ⟨front, rest, hnil, before, after, digit, -, -, -, hprefix⟩
  obtain ⟨-, rfl⟩ := List.append_eq_nil_iff.mp hnil.symm
  simp [writtenSum] at hprefix

theorem holdsSum_cons_iff {c : Char} {text : List Char} :
    HoldsSum (c :: text) ↔ BeginsSum (c :: text) ∨ HoldsSum text := by
  constructor
  · rintro ⟨front, rest, htext, hrest⟩
    rcases List.cons_eq_append_iff.mp htext with ⟨rfl, rfl⟩ | ⟨front, rfl, rfl⟩
    · exact .inl hrest
    · exact .inr ⟨front, rest, rfl, hrest⟩
  · rintro (h | ⟨front, rest, rfl, hrest⟩)
    · exact ⟨[], c :: text, rfl, h⟩
    · exact ⟨c :: front, rest, rfl, hrest⟩

/-- Where a sum can be read there is a first one. -/
theorem exists_firstSum {output : List Char} (h : HoldsSum output) :
    ∃ digits, FirstSum digits output := by
  induction output with
  | nil => exact absurd h not_holdsSum_nil
  | cons c output ih =>
      by_cases hbegins : BeginsSum (c :: output)
      · obtain ⟨⟨digits, length⟩, hread⟩ :=
          Option.ne_none_iff_exists'.mp (mt readSum_eq_none_iff.mp (not_not.mpr hbegins))
        obtain ⟨before, after, rest, hbefore, hafter, hne, hdigits, hrest, heq⟩ :=
          exists_writtenSum_of_readSum hread
        refine ⟨digits, ?_⟩
        rw [heq]
        exact .sum not_holdsSum_nil hbefore hafter hne hdigits hrest
      · obtain ⟨digits, hfirst⟩ := ih ((holdsSum_cons_iff.mp h).resolve_left hbegins)
        obtain @⟨front, rest, before, after, hfront, hbefore, hafter, hne, hdigits, hrest⟩ := hfirst
        have hlonger : ¬ HoldsSum (c :: front) := by
          rw [holdsSum_cons_iff]
          rintro (hfrontBegins | hholds)
          · exact hbegins (hfrontBegins.append _)
          · exact hfront hholds
        exact ⟨digits, .sum hlonger hbefore hafter hne hdigits hrest⟩

theorem FirstSum.isDigit_of_mem {digits output : List Char} (h : FirstSum digits output) :
    ∀ c ∈ digits, Text.isDigit c = true := by
  cases h
  assumption

/-! ## Counting -/

theorem Reads.sumCount_eq {output : String} {result : Except Failure Nat}
    (h : Reads output.toList result) : sumCount output = result := by
  cases h with
  | missing h =>
      rw [sumCount, readings_eq_nil h]
      rfl
  | tooLong hfirst hlong =>
      rw [sumCount, hfirst.head?_readings]
      exact if_pos hlong
  | sum hfirst hshort hdenotes =>
      rw [sumCount, hfirst.head?_readings]
      obtain ⟨-, rfl⟩ := Text.denotes_iff.mp hdenotes
      exact if_neg (not_lt.mpr hshort)

theorem exists_reads (output : List Char) : ∃ result, Reads output result := by
  by_cases h : HoldsSum output
  · obtain ⟨digits, hfirst⟩ := exists_firstSum h
    by_cases hlong : Text.digitLimit < digits.length
    · exact ⟨_, .tooLong hfirst hlong⟩
    · have hdenotes : Text.Denotes digits (Text.natOfDigits digits) :=
        Text.denotes_iff.mpr ⟨hfirst.isDigit_of_mem, rfl⟩
      exact ⟨_, .sum hfirst (not_lt.mp hlong) hdenotes⟩
  · exact ⟨_, .missing h⟩

/-- The first sum in an output is read exactly: what the count comes to is known from where a sum
can be read, the digits of the first one and the number that they denote. Every number below the
bound has such digits. A run gives back the count with the whole output, whatever the status and the
errors. -/
theorem sum_read_exactly (counter : WordCounter) (texPath : Path) (output : String) (status : Int)
    (errors : String) :
    (∀ result, sumCount output = result ↔ Reads output.toList result) ∧
      (∀ n, n < 10 ^ Text.digitLimit ↔
        ∃ digits, digits ≠ [] ∧ digits.length ≤ Text.digitLimit ∧ Text.Denotes digits n) ∧
      (counter.run texPath (.finished output status errors)).outcome =
        (sumCount output).map fun words => ⟨output, words⟩ := by
  refine ⟨fun result => ⟨?_, Reads.sumCount_eq⟩, fun n => ⟨?_, ?_⟩, rfl⟩
  · rintro rfl
    obtain ⟨result, hreads⟩ := exists_reads output.toList
    rwa [hreads.sumCount_eq]
  · intro hlt
    exact ⟨Text.natChars n, Nat.toDigits_ne_nil,
      (Nat.length_toDigits_le_iff (by decide) (by decide)).mpr hlt, Text.denotes_natChars n⟩
  · rintro ⟨digits, -, hlength, hdenotes⟩
    exact hdenotes.lt.trans_le (Nat.pow_le_pow_right (by decide) hlength)

-- A sum without digits does not count, and digits of several blocks make up one number.
example : sumCount "Sum count: Sum count:\t\u06604\uff12; Sum count: 7" = .ok 42 := by
  decide +kernel

end Galley.WordCounter
