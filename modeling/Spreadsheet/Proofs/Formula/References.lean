import Mathlib
import Spreadsheet.Proofs.Formula.Search

/-!
# The references of a text

The references are what the grammar says: the maximal runs of word characters that consist of ASCII
letters and then ASCII digits.
-/

namespace Spreadsheet

theorem Column.ofLetters?_map_toUpper (letters : List Char) :
    ofLetters? (letters.map Char.toUpper) = ofLetters? letters := by
  have hletter : letterNumber ∘ Char.toUpper = letterNumber := by
    funext letter
    simp [letterNumber]
  have hnumber : number (letters.map Char.toUpper) = number letters := by
    rw [number, number, ← List.map_reverse, List.map_map, hletter]
  apply Option.ext
  intro column
  rw [ofLetters?_eq_some_iff, ofLetters?_eq_some_iff, hnumber]
  simp

namespace Formula

/-- A token names the same cell in capitals. -/
theorem LettersThenDigits.ofName?_map_toUpper {token : List Char} (h : LettersThenDigits token) :
    Cell.ofName? (String.ofList (token.map Char.toUpper)) = target? token := by
  obtain ⟨letters, digits, rfl, -, -, halpha, hdigit⟩ := h
  have hdigits : digits.map Char.toUpper = digits := by
    refine (List.map_congr_left fun c hc => ?_).trans (List.map_id' digits)
    apply Char.toUpper_eq_of_not_isLower
    have hc : c.isAlpha = false := Cell.isAlpha_of_isDigit (hdigit c hc)
    simp_all [Char.isAlpha]
  have hcapitals : ∀ c ∈ letters.map Char.toUpper, c.isAlpha := by
    simpa using halpha
  obtain ⟨htake, hdrop⟩ := Cell.takeWhile_isAlpha_append halpha hdigit
  obtain ⟨htake', hdrop'⟩ := Cell.takeWhile_isAlpha_append hcapitals hdigit
  rw [target?, Cell.ofName?, Cell.ofName?, String.toList_ofList, String.toList_ofList,
    List.map_append, hdigits, htake, hdrop, htake', hdrop', Column.ofLetters?_map_toUpper]

theorem byteLength_eq (text : List Char) : byteLength text = (String.ofList text).utf8ByteSize := by
  rw [String.utf8ByteSize_ofList]
  induction text with
  | nil => rfl
  | cons c text ih => rw [byteLength, String.utf8Len_cons, ih, Nat.add_comm]

theorem byteLength_mono {front text : List Char} (h : front <+: text) :
    byteLength front ≤ byteLength text := by
  obtain ⟨rest, rfl⟩ := h
  rw [byteLength_append]
  exact Nat.le_add_right _ _

theorem eq_ofToken_iff {reference : Reference} {before token : List Char}
    (h : LettersThenDigits token) :
    reference = .ofToken (byteLength before) token ↔
      reference.start = (String.ofList before).utf8ByteSize ∧
      reference.stop = (String.ofList (before ++ token)).utf8ByteSize ∧
      reference.name = String.ofList (token.map Char.toUpper) ∧
      reference.cell = Cell.ofName? reference.name := by
  obtain ⟨start, stop, name, cell⟩ := reference
  rw [← byteLength_eq, ← byteLength_eq, byteLength_append, Reference.ofToken, Reference.mk.injEq]
  dsimp only
  constructor
  · rintro ⟨rfl, rfl, rfl, rfl⟩
    exact ⟨rfl, rfl, rfl, h.ofName?_map_toUpper.symm⟩
  · rintro ⟨rfl, rfl, rfl, rfl⟩
    exact ⟨rfl, rfl, rfl, h.ofName?_map_toUpper⟩

namespace IsMaximalRun

variable {before run after other token rest : List Char}

theorem eq_of_prefix (hother : IsMaximalRun other token rest) (hbefore : before <+: other)
    (hword : ∀ c ∈ run, Text.isWord c = true) (hrun : other <+: before ++ run) :
    before = other := by
  obtain ⟨skipped, rfl⟩ := hbefore
  by_contra hne
  have hskipped : skipped ≠ [] := by
    rintro rfl
    exact hne (List.append_nil _).symm
  have hlast := hother.before (skipped.getLast hskipped) (by
    rw [List.getLast?_append_of_ne_nil _ hskipped, List.getLast?_eq_some_getLast hskipped])
  have hmem : skipped.getLast hskipped ∈ run :=
    ((List.prefix_append_right_inj before).mp hrun).subset (List.getLast_mem hskipped)
  rw [hword _ hmem] at hlast
  cases hlast

/-- Two maximal runs of a text are the same or stand apart. -/
theorem eq_or_apart (h : IsMaximalRun before run after) (hother : IsMaximalRun other token rest)
    (heq : before ++ run ++ after = other ++ token ++ rest) :
    before = other ∧ run = token ∨ before ++ run <+: other ∨ other ++ token <+: before := by
  have hrun : before ++ run <+: other ++ token ++ rest := ⟨after, heq⟩
  have htoken : other ++ token <+: other ++ token ++ rest := List.prefix_append _ _
  have hbefore : before <+: other ++ token ++ rest := (List.prefix_append _ _).trans hrun
  have hother' : other <+: other ++ token ++ rest := (List.prefix_append _ _).trans htoken
  rcases List.prefix_or_prefix_of_prefix hrun hother' with hapart | hover
  · exact .inr (.inl hapart)
  rcases List.prefix_or_prefix_of_prefix htoken hbefore with hapart | hover'
  · exact .inr (.inr hapart)
  have hstart : before = other := by
    rcases List.prefix_or_prefix_of_prefix hbefore hother' with hle | hle
    · exact hother.eq_of_prefix hle h.isWord hover
    · exact (h.eq_of_prefix hle hother.isWord hover').symm
  subst hstart
  rw [List.append_assoc, List.append_assoc, List.append_cancel_left_eq] at heq
  exact .inl ⟨rfl, by rw [← h.takeWhile_eq.1, heq, hother.takeWhile_eq.1]⟩

end IsMaximalRun

/-- The references of a text come in order, none over another. They are the maximal runs of word
characters that consist of letters and then digits, and no other run holds one. The search finds
them. -/
theorem references_are_maximal_runs (text : List Char) :
    (references text).Pairwise (fun left right => left.stop ≤ right.start) ∧
    (∀ reference, reference ∈ references text ↔
      ∃ before run after, text = before ++ run ++ after ∧ IsMaximalRun before run after ∧
        LettersThenDigits run ∧
        reference.start = (String.ofList before).utf8ByteSize ∧
        reference.stop = (String.ofList (before ++ run)).utf8ByteSize ∧
        reference.name = String.ofList (run.map Char.toUpper) ∧
        reference.cell = Cell.ofName? reference.name) ∧
    (∀ before run after, text = before ++ run ++ after → IsMaximalRun before run after →
      ¬ LettersThenDigits run → ∀ reference ∈ references text,
        reference.stop ≤ (String.ofList before).utf8ByteSize ∨
          (String.ofList (before ++ run)).utf8ByteSize ≤ reference.start) ∧
    references text = search 0 none text := by
  refine ⟨pairwise_locate 0 _, ?_, ?_, (search_eq_references text).symm⟩
  · intro reference
    rw [mem_references_iff]
    refine exists_congr fun before => exists_congr fun run => exists_congr fun after =>
      and_congr_right fun _ => and_congr_right fun _ => ?_
    rw [isReference_iff]
    exact and_congr_right fun hrun => eq_ofToken_iff hrun
  · intro before run after htext hrun hother reference hreference
    obtain ⟨front, token, back, heq, htoken, hisReference, rfl⟩ := mem_references_iff.mp hreference
    rw [← byteLength_eq, ← byteLength_eq]
    rcases htoken.eq_or_apart hrun (heq.symm.trans htext) with ⟨-, rfl⟩ | hapart | hapart
    · exact absurd (isReference_iff.mp hisReference) hother
    · refine .inl ?_
      have hle := byteLength_mono hapart
      rwa [byteLength_append] at hle
    · exact .inr (byteLength_mono hapart)

example : (references "A1B2 + 12A + A1_ + éA1 + b2".toList).map Reference.name = ["B2"] := by
  decide +kernel

end Formula

end Spreadsheet
