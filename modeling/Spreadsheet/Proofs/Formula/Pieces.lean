import Mathlib.Data.List.SplitBy
import Mathlib.Data.List.TakeWhile
import Spreadsheet.Formula
import Spreadsheet.Proofs.Cell.Name

/-!
# Pieces of a formula

A reference fills a maximal run of word characters, and every such run of letters and then digits is
a reference.
-/

namespace Spreadsheet.Formula

/-! ### Pieces side by side -/

/-- Whether what stands on the two sides of a piece's end differs in being a word character. -/
def Piece.Apart (piece next : Piece) : Prop :=
  ∀ c d, piece.text.getLast? = some c → next.text.head? = some d → Text.isWord c ≠ Text.isWord d

structure Spaced (pieces : List Piece) : Prop where
  ne_nil : ∀ piece ∈ pieces, piece.text ≠ []
  isWord : ∀ token, .reference token ∈ pieces → ∀ c ∈ token, Text.isWord c = true
  apart : pieces.IsChain Piece.Apart

theorem Spaced.tail {piece : Piece} {pieces : List Piece} (h : Spaced (piece :: pieces)) :
    Spaced pieces where
  ne_nil other hother := h.ne_nil other (List.mem_cons_of_mem _ hother)
  isWord token htoken := h.isWord token (List.mem_cons_of_mem _ htoken)
  apart := (List.isChain_cons.mp h.apart).2

theorem isWord_of_isReference {run : List Char} (h : isReference run) :
    ∀ c ∈ run, Text.isWord c = true := by
  simp only [isReference, Bool.and_eq_true, decide_eq_true_eq, List.all_eq_true] at h
  intro c hc
  rw [← List.takeWhile_append_dropWhile (p := Char.isAlpha) (l := run), List.mem_append] at hc
  obtain hletter | hdigit := hc
  · have hc : c.isAlpha := List.mem_takeWhile_imp hletter
    simp [Text.isWord, Char.isAlphanum, hc]
  · have hc : c.isDigit := h.2 c hdigit
    simp [Text.isWord, Char.isAlphanum, hc]

theorem text_pieceOf (run : List Char) :
    (if isReference run then Piece.reference run else .plain run).text = run := by
  split <;> rfl

theorem flatMap_text_pieces (text : List Char) : (pieces text).flatMap Piece.text = text := by
  rw [pieces, List.flatMap_map]
  simp only [text_pieceOf, List.flatMap_id']
  exact List.flatten_splitBy _ text

theorem isReference_of_mem_pieces {text token : List Char}
    (h : .reference token ∈ pieces text) : isReference token := by
  obtain ⟨run, hrun, heq⟩ := List.mem_map.mp h
  split at heq <;> cases heq
  assumption

theorem spaced_pieces (text : List Char) : Spaced (pieces text) where
  ne_nil piece hpiece := by
    obtain ⟨run, hrun, rfl⟩ := List.mem_map.mp hpiece
    rw [text_pieceOf]
    rintro rfl
    exact List.nil_notMem_splitBy _ _ hrun
  isWord token htoken := isWord_of_isReference (isReference_of_mem_pieces htoken)
  apart := by
    have hchain :=
      List.isChain_getLast_head_splitBy (fun l r => Text.isWord l == Text.isWord r) text
    rw [pieces, List.isChain_map]
    refine hchain.imp ?_
    rintro run next ⟨hrun, hnext, hdiffer⟩ c d hc hd
    rw [text_pieceOf] at hc hd
    rw [List.getLast?_eq_some_getLast hrun] at hc
    rw [List.head?_eq_some_head hnext] at hd
    cases hc
    cases hd
    simpa using hdiffer

theorem Spaced.before_reference {piece : Piece} {token : List Char} {rest : List Piece}
    (h : Spaced (piece :: .reference token :: rest)) :
    ∀ c, piece.text.getLast? = some c → Text.isWord c = false := by
  intro c hc
  obtain ⟨d, token, rfl⟩ := List.exists_cons_of_ne_nil (h.ne_nil (.reference token) (by simp))
  have hdiffer := (List.isChain_cons.mp h.apart).1 _ rfl c d hc rfl
  rw [h.isWord (d :: token) (by simp) d (by simp)] at hdiffer
  simpa using hdiffer

theorem Spaced.after_reference {piece : Piece} {token : List Char} {rest : List Piece}
    (h : Spaced (.reference token :: piece :: rest)) :
    ∀ c, piece.text.head? = some c → Text.isWord c = false := by
  intro c hc
  have hne : token ≠ [] := h.ne_nil (.reference token) (by simp)
  have hdiffer := (List.isChain_cons.mp h.apart).1 _ rfl _ c (List.getLast?_eq_some_getLast hne) hc
  rw [h.isWord token (by simp) _ (List.getLast_mem hne)] at hdiffer
  simpa using hdiffer.symm

theorem Spaced.not_adjacent {token other : List Char} {rest : List Piece} :
    ¬ Spaced (.reference token :: .reference other :: rest) := by
  intro h
  have hne : token ≠ [] := h.ne_nil (.reference token) (by simp)
  have hnonword := h.before_reference _ (List.getLast?_eq_some_getLast hne)
  have hword := h.isWord token (by simp) _ (List.getLast_mem hne)
  exact absurd (hword.symm.trans hnonword) (by simp)

/-! ### Maximal runs -/

/-- A nonempty run of word characters, with none before or after it. -/
structure IsMaximalRun (before run after : List Char) : Prop where
  ne_nil : run ≠ []
  isWord : ∀ c ∈ run, Text.isWord c = true
  before : ∀ c, before.getLast? = some c → Text.isWord c = false
  after : ∀ c, after.head? = some c → Text.isWord c = false

def LettersThenDigits (run : List Char) : Prop :=
  ∃ letters digits, run = letters ++ digits ∧ letters ≠ [] ∧ digits ≠ [] ∧
    (∀ c ∈ letters, c.isAlpha) ∧ ∀ c ∈ digits, c.isDigit

theorem isReference_iff {run : List Char} : isReference run ↔ LettersThenDigits run := by
  unfold LettersThenDigits
  simp only [isReference, Bool.and_eq_true, decide_eq_true_eq, List.all_eq_true]
  constructor
  · rintro ⟨⟨hletters, hdigits⟩, hall⟩
    exact ⟨_, _, List.takeWhile_append_dropWhile.symm, hletters, hdigits,
      fun c hc => List.mem_takeWhile_imp hc, hall⟩
  · rintro ⟨letters, digits, rfl, hletters, hdigits, halpha, hall⟩
    obtain ⟨htake, hdrop⟩ := Cell.takeWhile_isAlpha_append halpha hall
    rw [htake, hdrop]
    exact ⟨⟨hletters, hdigits⟩, hall⟩

/-- A maximal run is what word characters there are where it starts. -/
theorem IsMaximalRun.takeWhile_eq {before run after : List Char}
    (h : IsMaximalRun before run after) :
    (run ++ after).takeWhile Text.isWord = run ∧ (run ++ after).dropWhile Text.isWord = after := by
  rw [List.takeWhile_append_of_pos h.isWord, List.dropWhile_append_of_pos h.isWord]
  cases after with
  | nil => simp
  | cons c after => simp [h.after c rfl]

theorem pieces_append {front back : List Char}
    (h : ∀ c d, front.getLast? = some c → back.head? = some d → Text.isWord c ≠ Text.isWord d) :
    pieces (front ++ back) = pieces front ++ pieces back := by
  have hruns : runs (front ++ back) = runs front ++ runs back :=
    List.splitBy_append fun c hc d hd => beq_false_of_ne (h c d hc hd)
  rw [pieces, hruns, List.map_append]
  rfl

/-- Characters of one kind are a single piece. -/
theorem pieces_of_isWord_eq {run : List Char} {kind : Bool} (hne : run ≠ [])
    (h : ∀ c ∈ run, Text.isWord c = kind) :
    pieces run = [if isReference run then .reference run else .plain run] := by
  have hchain : run.IsChain fun l r => (Text.isWord l == Text.isWord r) = true := by
    refine List.Pairwise.isChain (List.pairwise_of_forall_mem_list ?_)
    intro l hl r hr
    rw [h l hl, h r hr, beq_self_eq_true]
  rw [pieces, runs, List.splitBy_of_isChain hne hchain]
  rfl

theorem IsMaximalRun.pieces_eq {before run after : List Char}
    (h : IsMaximalRun before run after) :
    pieces (before ++ run ++ after) = pieces before ++
      (if isReference run then .reference run else .plain run) :: pieces after := by
  rw [pieces_append, pieces_append, pieces_of_isWord_eq h.ne_nil h.isWord, List.append_assoc,
    List.singleton_append]
  · intro c d hc hd
    rw [h.before c hc, h.isWord d (List.mem_of_mem_head? hd)]
    simp
  · intro c d hc hd
    rw [List.getLast?_append_of_ne_nil _ h.ne_nil] at hc
    rw [h.isWord c (List.mem_of_mem_getLast? hc), h.after d hd]
    simp

theorem Spaced.isMaximalRun {front back : List Piece} {token : List Char}
    (h : Spaced (front ++ .reference token :: back)) :
    IsMaximalRun (front.flatMap Piece.text) token (back.flatMap Piece.text) := by
  induction front with
  | nil =>
      refine ⟨h.ne_nil (.reference token) (by simp), h.isWord token (by simp), by simp, ?_⟩
      intro c hc
      cases back with
      | nil => simp at hc
      | cons piece back =>
          have hne : piece.text ≠ [] := h.ne_nil piece (by simp)
          rw [List.flatMap_cons, List.head?_append_of_ne_nil _ hne] at hc
          exact h.after_reference c hc
  | cons piece front ih =>
      have hrest := ih h.tail
      refine ⟨hrest.ne_nil, hrest.isWord, ?_, hrest.after⟩
      intro c hc
      cases front with
      | nil =>
          rw [List.flatMap_cons, List.flatMap_nil, List.append_nil] at hc
          exact h.before_reference c hc
      | cons next front =>
          have hne : (next :: front).flatMap Piece.text ≠ [] := by
            have hnext : next.text ≠ [] := h.ne_nil next (by simp)
            simp [hnext]
          rw [List.flatMap_cons, List.getLast?_append_of_ne_nil _ hne] at hc
          exact hrest.before c hc

/-! ### Places -/

theorem byteLength_append (front back : List Char) :
    byteLength (front ++ back) = byteLength front + byteLength back := by
  induction front with
  | nil => simp [byteLength]
  | cons c front ih => rw [List.cons_append, byteLength, byteLength, ih, Nat.add_assoc]

def Reference.ofToken (start : Nat) (token : List Char) : Reference :=
  { start, stop := start + byteLength token
    name := String.ofList (token.map Char.toUpper)
    cell := target? token }

theorem mem_locate_iff {offset : Nat} {pieces : List Piece} {reference : Reference} :
    reference ∈ locate offset pieces ↔ ∃ front token back,
      pieces = front ++ .reference token :: back ∧
        reference = .ofToken (offset + byteLength (front.flatMap Piece.text)) token := by
  induction pieces generalizing offset with
  | nil => simp [locate]
  | cons piece rest ih =>
      -- the piece in question is the first one, or has it in front
      have hlater : (∃ front token back, piece :: rest = front ++ .reference token :: back ∧
            reference = .ofToken (offset + byteLength (front.flatMap Piece.text)) token) ↔
          (∃ token, piece = .reference token ∧ reference = .ofToken offset token) ∨
            reference ∈ locate (offset + byteLength piece.text) rest := by
        rw [ih]
        constructor
        · rintro ⟨_ | ⟨first, front⟩, token, back, heq, hreference⟩
          · obtain ⟨rfl, rfl⟩ := List.cons.inj heq
            exact .inl ⟨token, rfl, by simpa [byteLength] using hreference⟩
          · obtain ⟨rfl, rfl⟩ := List.cons.inj heq
            refine .inr ⟨front, token, back, rfl, ?_⟩
            rw [hreference, List.flatMap_cons, byteLength_append, Nat.add_assoc]
        · rintro (⟨token, rfl, hreference⟩ | ⟨front, token, back, rfl, hreference⟩)
          · exact ⟨[], token, rest, rfl, by simpa [byteLength] using hreference⟩
          · refine ⟨piece :: front, token, back, rfl, ?_⟩
            rw [hreference, List.flatMap_cons, byteLength_append, Nat.add_assoc]
      rw [hlater]
      cases piece with
      | plain text => simp [locate, Piece.text]
      | reference token => simp [locate, Piece.text, Reference.ofToken]

theorem pairwise_locate (offset : Nat) (pieces : List Piece) :
    (locate offset pieces).Pairwise fun left right => left.stop ≤ right.start := by
  induction pieces generalizing offset with
  | nil => exact List.Pairwise.nil
  | cons piece rest ih =>
      cases piece with
      | plain text => exact ih _
      | reference token =>
          refine List.pairwise_cons.mpr ⟨?_, ih _⟩
          intro right hright
          obtain ⟨front, other, back, -, rfl⟩ := mem_locate_iff.mp hright
          exact Nat.le_add_right _ _

/-- The references of a text are its maximal runs of letters and then digits. -/
theorem mem_references_iff {text : List Char} {reference : Reference} :
    reference ∈ references text ↔ ∃ before run after, text = before ++ run ++ after ∧
      IsMaximalRun before run after ∧ isReference run ∧
        reference = .ofToken (byteLength before) run := by
  rw [references, mem_locate_iff]
  constructor
  · rintro ⟨front, token, back, hpieces, hreference⟩
    have hspaced := spaced_pieces text
    have htext := flatMap_text_pieces text
    rw [hpieces] at hspaced htext
    have htoken : Piece.reference token ∈ pieces text := by simp [hpieces]
    refine ⟨_, token, _, ?_, hspaced.isMaximalRun, isReference_of_mem_pieces htoken, ?_⟩
    · rw [← htext, List.flatMap_append, List.flatMap_cons, List.append_assoc]
      rfl
    · rw [hreference, Nat.zero_add]
  · rintro ⟨before, run, after, rfl, hrun, hreference, heq⟩
    refine ⟨pieces before, run, pieces after, ?_, ?_⟩
    · rw [hrun.pieces_eq, if_pos hreference]
    · rw [heq, flatMap_text_pieces, Nat.zero_add]

theorem references_eq_nil_iff {body : List Char} :
    references body = [] ↔ ∀ token, .reference token ∉ pieces body := by
  constructor
  · intro h token hmem
    obtain ⟨front, back, heq⟩ := List.append_of_mem hmem
    have hfound : _ ∈ references body := mem_locate_iff.mpr ⟨front, token, back, heq, rfl⟩
    rw [h] at hfound
    cases hfound
  · intro h
    refine List.eq_nil_iff_forall_not_mem.mpr fun reference hreference => ?_
    obtain ⟨front, token, back, heq, -⟩ := mem_locate_iff.mp hreference
    exact h token (by simp [heq])

end Spreadsheet.Formula
