import Spreadsheet.Proofs.Arithmetic.Assignments

/-!
# Nothing is left to substitute

The places of references are byte offsets. They fall between characters whatever stands in the text,
so what is cut out between them is the rest of the text, in order. A number never gives rise to a
reference: its text has no letter, and on each side of it stands no word character that could join
a digit of it to a word.
-/

namespace Spreadsheet.Formula

/-! ### Text between two places -/

/-- The text cut in two at a place in bytes of UTF-8; none if that place is within a character or
beyond the end. -/
def cutAt? : Nat → List Char → Option (List Char × List Char)
  | 0, text => some ([], text)
  | _ + 1, [] => none
  | place + 1, c :: rest =>
    if c.utf8Size ≤ place + 1 then
      (cutAt? (place + 1 - c.utf8Size) rest).map fun (front, back) => (c :: front, back)
    else
      none

def slice? (start stop : Nat) (text : List Char) : Option (List Char) := do
  let (front, _) ← cutAt? stop text
  let (_, between) ← cutAt? start front
  return between

def replaceFrom? (text : List Char) : Nat → List (Reference × Float) → Option (List Char)
  | place, [] => slice? place (byteLength text) text
  | place, (reference, n) :: rest => do
    let between ← slice? place reference.start text
    let after ← replaceFrom? text reference.stop rest
    return between ++ Number.literal n ++ after

theorem cutAt?_append (front back : List Char) :
    cutAt? (byteLength front) (front ++ back) = some (front, back) := by
  induction front with
  | nil => rw [byteLength, List.nil_append, cutAt?]
  | cons c front ih =>
      have hpos := c.utf8Size_pos
      obtain ⟨place, hplace⟩ : ∃ place, c.utf8Size + byteLength front = place + 1 :=
        Nat.exists_eq_add_one.mpr (by omega)
      have hrest : place + 1 - c.utf8Size = byteLength front := by omega
      rw [byteLength, hplace, List.cons_append, cutAt?, if_pos (by omega), hrest, ih]
      rfl

theorem slice?_append (front between back : List Char) :
    slice? (byteLength front) (byteLength (front ++ between)) (front ++ between ++ back) =
      some between := by
  simp only [slice?, cutAt?_append, Option.bind_eq_bind, Option.bind_some, Option.pure_def]

/-- Where `front` was dealt with and `pending` is still to be copied, the references ahead are
replaced as their pieces are. -/
theorem replaceFrom?_locate {text front pending : List Char} {pieces : List Piece}
    {numbers : List Float} (htext : text = front ++ pending ++ pieces.flatMap Piece.text)
    (hlength : numbers.length = (locate (byteLength (front ++ pending)) pieces).length) :
    replaceFrom? text (byteLength front)
        ((locate (byteLength (front ++ pending)) pieces).zip numbers) =
      some (pending ++ assign (numbers.getD · 0) pieces) := by
  induction pieces generalizing front pending numbers with
  | nil =>
      subst htext
      have hlast := slice?_append front pending []
      simpa [locate, replaceFrom?, assign] using hlast
  | cons piece rest ih =>
      rw [List.flatMap_cons] at htext
      cases piece with
      | plain piece =>
          rw [locate, ← byteLength_append, List.append_assoc] at hlength ⊢
          rw [ih (by simp [htext, Piece.text]) hlength, assign, List.append_assoc]
      | reference token =>
          rw [locate, ← byteLength_append] at hlength ⊢
          obtain ⟨n, later, rfl⟩ := List.exists_cons_of_length_eq_add_one hlength
          have hslice : slice? (byteLength front) (byteLength (front ++ pending)) text =
              some pending := htext ▸ slice?_append front pending _
          have hrest := @ih (front ++ pending ++ token) [] later (by simp [htext, Piece.text])
            (by simpa using hlength)
          rw [List.append_nil, List.nil_append] at hrest
          simp only [List.zip_cons_cons, replaceFrom?, hslice, hrest]
          simp [assign]

/-! ### No reference is left or comes up -/

theorem references_eq_nil_of_not_isAlpha {text : List Char} (h : ∀ c ∈ text, c.isAlpha = false) :
    references text = [] := by
  refine List.eq_nil_iff_forall_not_mem.mpr fun reference hreference => ?_
  obtain ⟨before, run, after, rfl, -, hrun, -⟩ := mem_references_iff.mp hreference
  obtain ⟨letters, digits, rfl, hne, -, hletters, -⟩ := isReference_iff.mp hrun
  obtain ⟨c, hc⟩ := List.exists_mem_of_ne_nil letters hne
  have hletter := h c (by simp [hc])
  rw [hletters c hc] at hletter
  cases hletter

/-- A maximal run stays one where less of the text around it is left. -/
theorem IsMaximalRun.within {front before run after back : List Char}
    (h : IsMaximalRun (front ++ before) run (after ++ back)) : IsMaximalRun before run after where
  ne_nil := h.ne_nil
  isWord := h.isWord
  before c hc := h.before c (by rw [List.getLast?_append, hc]; rfl)
  after c hc := h.after c (by rw [List.head?_append, hc]; rfl)

/-- A run that goes over the seam of two texts has a word character on each side of it. -/
theorem IsMaximalRun.isWord_seam {before left right after : List Char}
    (h : IsMaximalRun before (left ++ right) after) (hleft : left ≠ []) (hright : right ≠ []) :
    ∃ c d, (before ++ left).getLast? = some c ∧ (right ++ after).head? = some d ∧
      Text.isWord c = true ∧ Text.isWord d = true := by
  refine ⟨left.getLast hleft, right.head hright, ?_, ?_, ?_, ?_⟩
  · rw [List.getLast?_append_of_ne_nil _ hleft, List.getLast?_eq_some_getLast hleft]
  · rw [List.head?_append_of_ne_nil _ hright, List.head?_eq_some_head hright]
  · exact h.isWord _ (List.mem_append_left _ (List.getLast_mem hleft))
  · exact h.isWord _ (List.mem_append_right _ (List.head_mem hright))

theorem not_isReference_of_isMaximalRun {before run after : List Char}
    (hnone : references (before ++ run ++ after) = []) (h : IsMaximalRun before run after) :
    ¬ isReference run := by
  intro hreference
  have hmem := mem_references_iff.mpr ⟨before, run, after, rfl, h, hreference, rfl⟩
  rw [hnone] at hmem
  cases hmem

/-- Texts without references have none put together either, if no word runs on from one to the
other. -/
theorem references_append_eq_nil {front back : List Char} (hfront : references front = [])
    (hback : references back = [])
    (hbetween : ∀ c d, front.getLast? = some c → back.head? = some d →
      Text.isWord c = false ∨ Text.isWord d = false) : references (front ++ back) = [] := by
  refine List.eq_nil_iff_forall_not_mem.mpr fun reference hreference => ?_
  obtain ⟨before, run, after, heq, hrun, hletters, -⟩ := mem_references_iff.mp hreference
  have hinFront : ∀ kept, front = before ++ run ++ kept → after ≠ kept ++ back := by
    rintro kept rfl rfl
    have hwithin : IsMaximalRun ([] ++ before) run (kept ++ back) := hrun
    exact not_isReference_of_isMaximalRun hfront hwithin.within hletters
  have hinBack : ∀ skipped, before = front ++ skipped → back ≠ skipped ++ run ++ after := by
    rintro skipped rfl rfl
    have hwithin : IsMaximalRun (front ++ skipped) run (after ++ []) := by simpa using hrun
    exact not_isReference_of_isMaximalRun hback hwithin.within hletters
  rw [List.append_assoc] at heq
  rcases List.append_eq_append_iff.mp heq with ⟨skipped, hbefore, hrest⟩ | ⟨left, rfl, hrest⟩
  · exact hinBack skipped hbefore (by rw [hrest, List.append_assoc])
  rcases List.append_eq_append_iff.mp hrest with ⟨kept, rfl, hafter⟩ | ⟨right, rfl, rfl⟩
  · exact hinFront kept (List.append_assoc _ _ _).symm hafter
  · -- the run may only go over the seam if nothing of it stands on one side
    by_cases hleft : left = []
    · exact hinBack [] (by simp [hleft]) (by simp [hleft])
    by_cases hright : right = []
    · exact hinFront [] (by simp [hright]) (by simp [hright])
    obtain ⟨c, d, hlast, hhead, hc, hd⟩ := hrun.isWord_seam hleft hright
    rcases hbetween c d hlast hhead with hedge | hedge
    · rw [hc] at hedge
      cases hedge
    · rw [hd] at hedge
      cases hedge

theorem references_literal {n : Float} (h : n.isFinite) : references (Number.literal n) = [] := by
  obtain ⟨whole, fraction, hpointed, -, -, hdigits, hfractionDigits⟩ := Number.isPointed_pointed h
  have hletter : ∀ c ∈ Number.pointed n, c.isAlpha = false := by
    rw [hpointed]
    intro c hc
    rcases List.mem_append.mp hc with hwhole | hfraction
    · exact Cell.isAlpha_of_isDigit (hdigits c hwhole)
    · rcases List.mem_cons.mp hfraction with rfl | hfraction
      · decide
      · exact Cell.isAlpha_of_isDigit (hfractionDigits c hfraction)
  refine references_eq_nil_of_not_isAlpha fun c hc => ?_
  rw [Number.literal_eq] at hc
  split at hc
  · simp only [List.cons_append, List.mem_cons, List.mem_append, List.not_mem_nil, or_false] at hc
    rcases hc with rfl | rfl | hc | rfl
    · decide
    · decide
    · exact hletter c hc
    · decide
  · exact hletter c hc

theorem references_of_plain_mem {text run : List Char} (h : .plain run ∈ pieces text) :
    references run = [] := by
  obtain ⟨other, hrun, heq⟩ := List.mem_map.mp h
  split at heq
  · cases heq
  · rename_i hnot
    obtain rfl : other = run := Piece.plain.inj heq
    have hruns : runs other = [other] :=
      List.splitBy_of_isChain (List.ne_nil_of_mem_splitBy hrun) (List.isChain_of_mem_splitBy hrun)
    rw [references_eq_nil_iff]
    intro token htoken
    rw [pieces, hruns] at htoken
    simp [hnot] at htoken

theorem references_assign {pieces : List Piece} {number : Nat → Float} (hspaced : Spaced pieces)
    (hplain : ∀ text, .plain text ∈ pieces → references text = [])
    (hnumber : ∀ i, (number i).isFinite) : references (assign number pieces) = [] := by
  induction pieces generalizing number with
  | nil => rfl
  | cons piece rest ih =>
      have hrest := fun {number : Nat → Float} hnumber => @ih number hspaced.tail
        (fun text htext => hplain text (List.mem_cons_of_mem _ htext)) hnumber
      cases piece with
      | plain text =>
          have hne : text ≠ [] := hspaced.ne_nil (.plain text) (by simp)
          refine references_append_eq_nil (hplain text List.mem_cons_self) (hrest hnumber) ?_
          intro c d hc hd
          cases rest with
          | nil => cases hd
          | cons next rest =>
              cases next with
              | reference token => exact .inl (hspaced.before_reference c hc)
              | plain other =>
                  have hother : other ≠ [] := hspaced.ne_nil (.plain other) (by simp)
                  rw [assign, List.head?_append_of_ne_nil _ hother] at hd
                  have hdiffer := (List.isChain_cons.mp hspaced.apart).1 _ rfl c d hc hd
                  revert hdiffer
                  cases Text.isWord c <;> cases Text.isWord d <;> simp
      | reference token =>
          refine references_append_eq_nil (references_literal (hnumber 0))
            (hrest fun i => hnumber (i + 1)) ?_
          intro c d hc hd
          cases rest with
          | nil => cases hd
          | cons next rest =>
              cases next with
              | reference other => exact absurd hspaced Spaced.not_adjacent
              | plain other =>
                  have hother : other ≠ [] := hspaced.ne_nil (.plain other) (by simp)
                  rw [assign, List.head?_append_of_ne_nil _ hother] at hd
                  exact .inr (hspaced.after_reference d hd)

/-! ### The loop over the references -/

def Reference.number (find : Cell → Resolution Float) (reference : Reference) : Resolution Float :=
  match reference.cell with
  | some cell => find cell
  | none => pure 0

theorem substitute_reference (find : Cell → Resolution Float) (offset : Nat) (token : List Char)
    (rest : List Piece) :
    Evaluator.substitute find (.reference token :: rest) =
      (Reference.number find (.ofToken offset token) >>= fun n =>
        Evaluator.substitute find rest >>= fun text => pure (Number.literal n ++ text)) := by
  rw [Evaluator.substitute, Reference.number, Reference.ofToken]
  cases target? token <;> rfl

/-- To substitute is to ask for a number for each reference in turn and to put the numbers into
their places. -/
theorem answer_substitute_eq (find : Cell → Resolution Float) (offset : Nat) (pieces : List Piece)
    (progress : Progress) :
    (Evaluator.substitute find pieces).answer progress =
      match ((locate offset pieces).mapM (Reference.number find)).answer progress with
      | (.ok numbers, after) => (.ok (assign (numbers.getD · 0) pieces), after)
      | (.error cause, after) => (.error cause, after) := by
  induction pieces generalizing offset progress with
  | nil => rfl
  | cons piece rest ih =>
      cases piece with
      | plain text =>
          simp only [Evaluator.substitute, locate, Resolution.answer_bind,
            ih (offset + byteLength text)]
          rcases ((locate (offset + byteLength text) rest).mapM (Reference.number find)).answer
            progress with ⟨cause | numbers, after⟩ <;> rfl
      | reference token =>
          have hlocate : locate offset (.reference token :: rest) =
              .ofToken offset token :: locate (offset + byteLength token) rest := rfl
          rw [substitute_reference find offset, hlocate]
          simp only [List.mapM_cons, Resolution.answer_bind, ih (offset + byteLength token)]
          rcases (Reference.number find (.ofToken offset token)).answer progress with
            ⟨cause | n, middle⟩
          · rfl
          · dsimp only
            rcases ((locate (offset + byteLength token) rest).mapM (Reference.number find)).answer
              middle with ⟨cause | numbers, after⟩ <;> rfl

/-- For all finite numbers given to its references, a formula's text for arithmetic is its body with
every reference cut out at its place and the literal of its number put in instead. No reference is
left in it, and none comes up. -/
theorem substitution_leaves_no_reference (body : List Char) (numbers : List Float)
    (hlength : numbers.length = (references body).length) (hfinite : ∀ n ∈ numbers, n.isFinite) :
    ∃ expression,
      (∀ find progress after,
        ((references body).mapM (Reference.number find)).answer progress = (.ok numbers, after) →
        (Evaluator.substitute find (pieces body)).answer progress = (.ok expression, after)) ∧
      replaceFrom? body 0 ((references body).zip numbers) = some expression ∧
      references expression = [] := by
  have hnumber : ∀ i, (numbers.getD i 0).isFinite := by
    intro i
    rw [List.getD_eq_getElem?_getD]
    cases hget : numbers[i]? with
    | none => decide
    | some n => exact hfinite n (List.mem_of_getElem? hget)
  refine ⟨assign (numbers.getD · 0) (pieces body), fun find progress after hfound => ?_, ?_, ?_⟩
  · rw [answer_substitute_eq find 0, ← references, hfound]
  · exact @replaceFrom?_locate body [] [] _ _ (flatMap_text_pieces body).symm hlength
  · exact references_assign (spaced_pieces body) (fun text => references_of_plain_mem) hnumber

/-- Characters of two bytes stand before the first reference, one reference comes twice, and one
names no cell. -/
theorem substitution_leaves_no_reference_in_wide_text :
    let body := "é×A1-b2^A0+a01".toList
    let numbers : List Float := [-5, 0.25, 0, -5]
    let find := fun cell => pure (if cell = inColumnA 0 then -5 else 0.25)
    let expression := "é×(-5.0)-0.25^0.0+(-5.0)".toList
    numbers.length = (references body).length ∧ (∀ n ∈ numbers, n.isFinite) ∧
    (∀ progress, (Evaluator.substitute find (pieces body)).answer progress =
      (.ok expression, progress)) ∧
    replaceFrom? body 0 ((references body).zip numbers) = some expression ∧
    references expression = [] := by
  intro body numbers find expression
  have hlength : numbers.length = (references body).length := by decide +kernel
  have hfinite : ∀ n ∈ numbers, n.isFinite := by decide +kernel
  have hplaces : replaceFrom? body 0 ((references body).zip numbers) = some expression := by
    decide +kernel
  have hcells : (references body).map Reference.cell =
      [some (inColumnA 0), some { row := 1, col := 1 }, none, some (inColumnA 0)] := by
    decide +kernel
  obtain ⟨found, hloop, hfound, hnone⟩ :=
    substitution_leaves_no_reference body numbers hlength hfinite
  obtain rfl : expression = found := Option.some.inj (hplaces.symm.trans hfound)
  refine ⟨hlength, hfinite, fun progress => hloop find progress progress ?_, hplaces, hnone⟩
  have hnumber : Reference.number find =
      (fun | some cell => find cell | none => pure 0) ∘ Reference.cell := rfl
  rw [hnumber, ← List.mapM_map, hcells]
  rfl

end Spreadsheet.Formula
