import Spreadsheet.Proofs.Arithmetic.Refilling
import Spreadsheet.Proofs.Evaluation.Traversal
import Spreadsheet.Proofs.Formula.Pieces

/-!
# Numbers assigned to references

A reference fills a maximal run of word characters, so a number in its place stands apart from digits
and letters around it.
-/

namespace Spreadsheet

namespace Formula

def assign (number : Nat → Float) : List Piece → List Char
  | [] => []
  | .plain text :: rest => text ++ assign number rest
  | .reference _ :: rest => Number.literal (number 0) ++ assign (fun i => number (i + 1)) rest

def before (first : Float) (number : Nat → Float) : Nat → Float
  | 0 => first
  | i + 1 => number i

/-- What is calculated for a formula is its text with numbers assigned, each of which was found for
a cell or is the zero of a reference to no cell. -/
theorem exists_assign_eq_splice (numbers : List Float) (pieces : List Piece) :
    ∃ number, splice numbers pieces = assign number pieces ∧
      ∀ i, number i = 0 ∨ number i ∈ numbers := by
  induction pieces generalizing numbers with
  | nil => exact ⟨fun _ => 0, rfl, fun _ => .inl rfl⟩
  | cons piece rest ih =>
      cases piece with
      | plain text =>
          obtain ⟨number, hsplice, hfound⟩ := ih numbers
          exact ⟨number, by rw [splice, assign, hsplice], hfound⟩
      | reference token =>
          rw [splice]
          split
          · obtain ⟨number, hsplice, hfound⟩ := ih numbers
            refine ⟨before 0 number, by rw [hsplice]; rfl, ?_⟩
            rintro (_ | i)
            · exact .inl rfl
            · exact hfound i
          · obtain ⟨number, hsplice, hfound⟩ := ih numbers.tail
            refine ⟨before (numbers.headD 0) number, by rw [hsplice]; rfl, ?_⟩
            rintro (_ | i)
            · cases numbers <;> simp [before]
            · exact (hfound i).imp_right List.mem_of_mem_tail

end Formula

namespace Arithmetic

open Formula

variable {related : Float → Float → Prop} {pieces : List Piece} {f g : Nat → Float}

theorem Refills.append_plain {start : Bool} {text rest other : List Char} (hne : text ≠ [])
    (h : Refills related (!Text.isWord (text.getLast hne)) rest other) :
    Refills related start (text ++ rest) (text ++ other) := by
  induction text generalizing start with
  | nil => exact absurd rfl hne
  | cons c text ih =>
      cases text with
      | nil => exact .char c h
      | cons d text =>
          rw [List.getLast_cons (List.cons_ne_nil d text)] at h
          exact .char c (ih (List.cons_ne_nil d text) h)

/-- Texts of the same pieces with different numbers assigned are the same but for these numbers. -/
theorem refills_assign (hspaced : Spaced pieces) (hrelated : ∀ i, related (f i) (g i)) {start : Bool}
    (hstart : ∀ token, pieces.head? = some (.reference token) → start = true) :
    Refills related start (assign f pieces) (assign g pieces) := by
  induction pieces generalizing f g start with
  | nil => exact .nil start
  | cons piece rest ih =>
      cases piece with
      | plain text =>
          have hne : text ≠ [] := hspaced.ne_nil (.plain text) (by simp)
          refine .append_plain hne (ih hspaced.tail hrelated fun token htoken => ?_)
          obtain ⟨rest, rfl⟩ := List.head?_eq_some_iff.mp htoken
          rw [hspaced.before_reference _ (List.getLast?_eq_some_getLast hne)]
          rfl
      | reference token =>
          obtain rfl := hstart token rfl
          refine .number (hrelated 0) ?_ (ih hspaced.tail (fun i => hrelated (i + 1)) ?_)
          · intro c hc
            cases rest with
            | nil => cases hc
            | cons next rest =>
                cases next with
                | reference other => exact absurd hspaced Spaced.not_adjacent
                | plain text =>
                    have hne := hspaced.ne_nil (.plain text) (by simp)
                    obtain ⟨d, text, rfl⟩ := List.exists_cons_of_ne_nil hne
                    exact hspaced.after_reference c hc
          · intro other hother
            obtain ⟨rest, rfl⟩ := List.head?_eq_some_iff.mp hother
            exact absurd hspaced Spaced.not_adjacent

/-! ### Comments -/

theorem head?_assign (hspaced : Spaced pieces) (hf : ∀ i, (f i).isFinite) {c : Char}
    (hc : (assign f pieces).head? = some c) :
    (c = '(' ∨ c.isDigit) ∨ (pieces.flatMap Piece.text).head? = some c := by
  cases pieces with
  | nil => cases hc
  | cons piece rest =>
      cases piece with
      | plain text =>
          have hne := hspaced.ne_nil (.plain text) (by simp)
          obtain ⟨d, text, rfl⟩ := List.exists_cons_of_ne_nil hne
          exact .inr hc
      | reference token =>
          obtain ⟨d, hd, hkind⟩ := Number.head?_literal (hf 0)
          rw [assign, List.head?_append, hd] at hc
          obtain rfl : d = c := by simpa using hc
          exact .inl hkind

/-- No comment opens where numbers are assigned to references. -/
theorem opensNoComment_assign (hspaced : Spaced pieces) (hf : ∀ i, (f i).isFinite)
    (h : Lexeme.OpensNoComment (pieces.flatMap Piece.text)) :
    Lexeme.OpensNoComment (assign f pieces) := by
  induction pieces generalizing f with
  | nil => exact .nil
  | cons piece rest ih =>
      rw [List.flatMap_cons] at h
      obtain ⟨hfirst, hrest, hbetween⟩ := List.isChain_append.mp h
      have htail := fun {f : Nat → Float} hf => @ih f hspaced.tail hf hrest
      cases piece with
      | plain text =>
          refine List.isChain_append.mpr ⟨hfirst, htail hf, fun c hc d hd hslash => ?_⟩
          obtain (rfl | hdigit) | hhead := head?_assign hspaced.tail hf hd
          · decide
          · refine ⟨?_, ?_, ?_⟩ <;> rintro rfl <;> exact absurd hdigit (by decide)
          · exact hbetween c hc d hhead hslash
      | reference token =>
          exact Lexeme.opensNoComment_append (Number.slash_not_mem_literal (hf 0))
            (htail fun i => hf (i + 1))

/-- Text without digits holds no number, so there is nothing to assign. -/
theorem assign_eq_of_not_isDigit (hf : ∀ i, (f i).isFinite)
    (h : ∀ d ∈ assign f pieces, d.isDigit = false) (g : Nat → Float) :
    assign f pieces = assign g pieces := by
  induction pieces generalizing f g with
  | nil => rfl
  | cons piece rest ih =>
      rw [assign.eq_def] at h
      cases piece with
      | plain text => rw [assign, assign, ih hf (List.forall_mem_append.mp h).2]
      | reference token =>
          obtain ⟨d, hd, hdigit⟩ := Number.exists_isDigit_literal (hf 0)
          rw [(List.forall_mem_append.mp h).1 d hd] at hdigit
          cases hdigit

end Arithmetic

end Spreadsheet
