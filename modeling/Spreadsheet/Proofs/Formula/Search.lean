import Spreadsheet.Proofs.Formula.Pieces

/-!
# Searching for references

A search that tries one place after the other, takes as many letters and digits as it can, gives
some back where that does not fit, and goes on behind what it took, finds the references.
-/

namespace Spreadsheet.Formula

/-- What to search for: an edge of a run of word characters, one or more characters of a class, or
one pattern after another. -/
inductive Pattern where
  | edge
  | many (holds : Char → Bool)
  | seq (first second : Pattern)

namespace Pattern

def isEdge (previous : Option Char) (rest : List Char) : Bool :=
  previous.any Text.isWord != rest.head?.any Text.isWord

def takes (holds : Char → Bool) : List Char → List (List Char × List Char)
  | [] => []
  | c :: rest =>
    if holds c then
      (takes holds rest).map (fun (taken, left) => (c :: taken, left)) ++ [([c], rest)]
    else
      []

/-- The ways to match a pattern at the start of a text that follows `previous`, if a character is
there: what is taken and what is left. They come in the order in which they are tried. -/
def ways : Pattern → Option Char → List Char → List (List Char × List Char)
  | .edge, previous, text => if isEdge previous text then [([], text)] else []
  | .many holds, _, text => takes holds text
  | .seq first second, previous, text =>
    (first.ways previous text).flatMap fun (taken, rest) =>
      (second.ways (taken.getLast?.or previous) rest).map fun (more, left) => (taken ++ more, left)

def cellName : Pattern :=
  .seq .edge (.seq (.many Char.isAlpha) (.seq (.many Char.isDigit) .edge))

theorem mem_takes_iff {holds : Char → Bool} {text taken left : List Char} :
    (taken, left) ∈ takes holds text ↔
      text = taken ++ left ∧ taken ≠ [] ∧ ∀ c ∈ taken, holds c := by
  induction text generalizing taken with
  | nil =>
      simp only [takes, List.not_mem_nil, false_iff, List.nil_eq, List.append_eq_nil_iff]
      tauto
  | cons c rest ih =>
      rw [takes]
      by_cases hc : holds c
      · rw [if_pos hc, List.mem_append, List.mem_map]
        constructor
        · rintro (⟨⟨taken, left⟩, hmem, heq⟩ | hmem)
          · obtain ⟨rfl, rfl⟩ := Prod.mk.inj heq
            obtain ⟨rfl, -, hall⟩ := ih.mp hmem
            exact ⟨rfl, by simp, by simpa [hc] using hall⟩
          · obtain ⟨rfl, rfl⟩ := Prod.mk.inj (List.mem_singleton.mp hmem)
            simp [hc]
        · rintro ⟨heq, hne, hall⟩
          obtain ⟨first, taken, rfl⟩ := List.exists_cons_of_ne_nil hne
          obtain ⟨rfl, rfl⟩ := List.cons.inj heq
          by_cases htaken : taken = []
          · subst htaken
            simp
          · exact .inl ⟨(taken, left), ih.mpr ⟨rfl, htaken, fun d hd => hall d (by simp [hd])⟩, rfl⟩
      · rw [if_neg hc]
        simp only [List.not_mem_nil, false_iff]
        rintro ⟨heq, hne, hall⟩
        obtain ⟨first, taken, rfl⟩ := List.exists_cons_of_ne_nil hne
        obtain ⟨rfl, -⟩ := List.cons.inj heq
        exact hc (hall c List.mem_cons_self)

theorem mem_ways_edge {previous : Option Char} {text taken left : List Char} :
    (taken, left) ∈ edge.ways previous text ↔ isEdge previous text ∧ taken = [] ∧ left = text := by
  simp [ways]

theorem mem_ways_seq {first second : Pattern} {previous : Option Char}
    {text taken left : List Char} :
    (taken, left) ∈ (seq first second).ways previous text ↔
      ∃ front rest back, (front, rest) ∈ first.ways previous text ∧
        (back, left) ∈ second.ways (front.getLast?.or previous) rest ∧ taken = front ++ back := by
  simp only [ways, List.mem_flatMap, List.mem_map, Prod.exists, Prod.mk.injEq]
  constructor
  · rintro ⟨front, rest, hfirst, back, left, hsecond, rfl, rfl⟩
    exact ⟨front, rest, back, hfirst, hsecond, rfl⟩
  · rintro ⟨front, rest, back, hfirst, hsecond, rfl⟩
    exact ⟨front, rest, hfirst, back, left, hsecond, rfl, rfl⟩

end Pattern

structure StartsWith (previous : Option Char) (text token rest : List Char) : Prop where
  eq : text = token ++ rest
  isReference : isReference token
  before : previous.any Text.isWord = false
  after : rest.head?.any Text.isWord = false

namespace StartsWith

variable {previous : Option Char} {text token rest other left : List Char}

theorem ne_nil (h : StartsWith previous text token rest) : token ≠ [] := by
  rintro rfl
  exact absurd h.isReference (by decide)

theorem isMaximalRun (h : StartsWith previous text token rest) : IsMaximalRun [] token rest where
  ne_nil := h.ne_nil
  isWord := isWord_of_isReference h.isReference
  before := by simp
  after c hc := by simpa [hc] using h.after

theorem pieces_eq (h : StartsWith previous text token rest) :
    pieces text = .reference token :: pieces rest := by
  have hpieces := h.isMaximalRun.pieces_eq
  rw [if_pos h.isReference] at hpieces
  rw [h.eq]
  exact hpieces

/-- The token is as long as the run of word characters. -/
theorem unique (h : StartsWith previous text token rest)
    (hother : StartsWith previous text other left) : (token, rest) = (other, left) := by
  obtain ⟨htoken, hrest⟩ := h.isMaximalRun.takeWhile_eq
  obtain ⟨hother', hleft⟩ := hother.isMaximalRun.takeWhile_eq
  rw [← h.eq] at htoken hrest
  rw [← hother.eq] at hother' hleft
  rw [← htoken, ← hrest, ← hother', ← hleft]

end StartsWith

namespace Pattern

variable {previous : Option Char} {text token rest : List Char}

theorem isEdge_before (hne : token ≠ []) (hword : ∀ c ∈ token, Text.isWord c = true) :
    isEdge previous (token ++ rest) = !previous.any Text.isWord := by
  obtain ⟨c, token, rfl⟩ := List.exists_cons_of_ne_nil hne
  simp [isEdge, hword c List.mem_cons_self]

theorem isEdge_after (hne : token ≠ []) (hword : ∀ c ∈ token, Text.isWord c = true) :
    isEdge (token.getLast?.or previous) rest = !rest.head?.any Text.isWord := by
  rw [List.getLast?_eq_some_getLast hne]
  simp [isEdge, hword _ (List.getLast_mem hne)]

/-- However many letters and digits are taken at first, the edges leave only whole runs of word
characters. -/
theorem mem_ways_cellName_iff :
    (token, rest) ∈ cellName.ways previous text ↔ StartsWith previous text token rest := by
  constructor
  · intro h
    obtain ⟨_, _, _, hfirst, hword, rfl⟩ := mem_ways_seq.mp h
    obtain ⟨hbefore, rfl, rfl⟩ := mem_ways_edge.mp hfirst
    obtain ⟨letters, _, _, hletters, hmore, rfl⟩ := mem_ways_seq.mp hword
    obtain ⟨rfl, hletter, halpha⟩ := mem_takes_iff.mp hletters
    obtain ⟨digits, _, _, hdigits, hlast, rfl⟩ := mem_ways_seq.mp hmore
    obtain ⟨rfl, hdigit, hall⟩ := mem_takes_iff.mp hdigits
    obtain ⟨hafter, rfl, rfl⟩ := mem_ways_edge.mp hlast
    have htoken : isReference (letters ++ digits) :=
      isReference_iff.mpr ⟨letters, digits, rfl, hletter, hdigit, halpha, hall⟩
    have hisWord := isWord_of_isReference htoken
    rw [isEdge_before hletter fun c hc => hisWord c (List.mem_append_left _ hc)] at hbefore
    rw [isEdge_after hdigit fun c hc => hisWord c (List.mem_append_right _ hc)] at hafter
    rw [List.nil_append, List.append_nil]
    exact ⟨by simp, htoken, by simpa using hbefore, by simpa using hafter⟩
  · rintro ⟨rfl, htoken, hbefore, hafter⟩
    have hisWord := isWord_of_isReference htoken
    obtain ⟨letters, digits, rfl, hletter, hdigit, halpha, hall⟩ := isReference_iff.mp htoken
    refine mem_ways_seq.mpr ⟨[], _, letters ++ digits, mem_ways_edge.mpr ⟨?_, rfl, rfl⟩, ?_, rfl⟩
    · rw [isEdge_before (List.append_ne_nil_of_left_ne_nil hletter _) hisWord, hbefore]
      rfl
    refine mem_ways_seq.mpr ⟨letters, digits ++ rest, digits,
      mem_takes_iff.mpr ⟨List.append_assoc _ _ _, hletter, halpha⟩, ?_, rfl⟩
    refine mem_ways_seq.mpr ⟨digits, rest, [], mem_takes_iff.mpr ⟨rfl, hdigit, hall⟩,
      mem_ways_edge.mpr ⟨?_, rfl, rfl⟩, (List.append_nil _).symm⟩
    rw [isEdge_after hdigit fun c hc => hisWord c (List.mem_append_right _ hc), hafter]
    rfl

/-- The way tried first is the only one. -/
theorem head?_ways_cellName_eq_some_iff :
    (cellName.ways previous text).head? = some (token, rest) ↔
      StartsWith previous text token rest := by
  rw [← mem_ways_cellName_iff]
  refine ⟨List.mem_of_mem_head?, fun h => ?_⟩
  obtain ⟨⟨other, left⟩, hhead⟩ : ∃ way, (cellName.ways previous text).head? = some way :=
    Option.isSome_iff_exists.mp (by simpa using List.ne_nil_of_mem h)
  have hother := mem_ways_cellName_iff.mp (List.mem_of_mem_head? hhead)
  rw [hhead, hother.unique (mem_ways_cellName_iff.mp h)]

end Pattern

def search (offset : Nat) (previous : Option Char) (text : List Char) : List Reference :=
  match _hmatch : (Pattern.cellName.ways previous text).head? with
  | some (token, rest) =>
    .ofToken offset token :: search (offset + byteLength token) token.getLast? rest
  | none =>
    match text with
    | [] => []
    | c :: rest => search (offset + c.utf8Size) (some c) rest
termination_by text.length
decreasing_by
  · have hstarts := Pattern.head?_ways_cellName_eq_some_iff.mp _hmatch
    have hpos := List.length_pos_of_ne_nil hstarts.ne_nil
    rw [hstarts.eq, List.length_append]
    omega
  · exact Nat.lt_succ_self _

theorem search_of_startsWith {offset : Nat} {previous : Option Char} {text token rest : List Char}
    (h : StartsWith previous text token rest) :
    search offset previous text =
      .ofToken offset token :: search (offset + byteLength token) token.getLast? rest := by
  have hmatch := Pattern.head?_ways_cellName_eq_some_iff.mpr h
  rw [search]
  split
  · rename_i other left hother
    obtain ⟨rfl, rfl⟩ := Prod.mk.inj (Option.some.inj (hmatch.symm.trans hother))
    rfl
  · rename_i hnone
    rw [hmatch] at hnone
    cases hnone

theorem search_cons {offset : Nat} {previous : Option Char} {c : Char} {text : List Char}
    (h : ∀ token rest, ¬ StartsWith previous (c :: text) token rest) :
    search offset previous (c :: text) = search (offset + c.utf8Size) (some c) text := by
  rw [search]
  split
  · rename_i token rest hmatch
    exact absurd (Pattern.head?_ways_cellName_eq_some_iff.mp hmatch) (h token rest)
  · rfl

theorem search_nil (offset : Nat) (previous : Option Char) : search offset previous [] = [] := by
  rw [search]
  split
  · rename_i token rest hmatch
    have hstarts := Pattern.head?_ways_cellName_eq_some_iff.mp hmatch
    exact absurd (List.append_eq_nil_iff.mp hstarts.eq.symm).1 hstarts.ne_nil
  · rfl

def continues (previous : Option Char) (c : Char) : Bool :=
  previous.any fun d => Text.isWord d == Text.isWord c

theorem continues_congr {previous : Option Char} {c : Char} (h : continues previous c = true) :
    continues (some c) = continues previous := by
  funext d
  cases previous with
  | none => cases h
  | some b =>
      have hb : Text.isWord b = Text.isWord c := by simpa [continues] using h
      simp [continues, hb]

theorem StartsWith.not_continues {previous : Option Char} {text token rest : List Char}
    (h : StartsWith previous text token rest) {c : Char} (hc : text.head? = some c) :
    continues previous c = false := by
  rw [h.eq, List.head?_append_of_ne_nil _ h.ne_nil] at hc
  have hword : Text.isWord c = true :=
    isWord_of_isReference h.isReference c (List.mem_of_mem_head? hc)
  have hbefore := h.before
  cases previous with
  | none => rfl
  | some d =>
      have hd : Text.isWord d = false := hbefore
      simp [continues, hd, hword]

theorem StartsWith.not_continues_rest {previous : Option Char} {text token rest : List Char}
    (h : StartsWith previous text token rest) {c : Char} (hc : rest.head? = some c) :
    continues token.getLast? c = false := by
  have hlast := h.isMaximalRun.isWord _ (List.getLast_mem h.ne_nil)
  rw [List.getLast?_eq_some_getLast h.ne_nil]
  simp [continues, hlast, h.isMaximalRun.after c hc]

theorem continues_some_iff {c d : Char} :
    continues (some c) d = true ↔ Text.isWord d = Text.isWord c := by
  rw [continues, Option.any_some, beq_iff_eq, eq_comm]

theorem isWord_of_mem_run {c d : Char} {rest : List Char}
    (h : d ∈ c :: rest.takeWhile (continues (some c))) : Text.isWord d = Text.isWord c := by
  rcases List.mem_cons.mp h with rfl | hrest
  · rfl
  · exact continues_some_iff.mp (List.mem_takeWhile_imp hrest)

theorem isWord_ne_of_head?_dropWhile {c d : Char} {rest : List Char}
    (h : (rest.dropWhile (continues (some c))).head? = some d) :
    Text.isWord d ≠ Text.isWord c := by
  have hends := List.head?_dropWhile_not (continues (some c)) rest
  rw [h] at hends
  rw [Ne, ← continues_some_iff, hends]
  simp

/-- The first piece of a text is its first run. -/
theorem pieces_cons (c : Char) (rest : List Char) :
    let run := c :: rest.takeWhile (continues (some c))
    pieces (c :: rest) = (if isReference run then .reference run else .plain run) ::
      pieces (rest.dropWhile (continues (some c))) := by
  intro run
  have htext : c :: rest = run ++ rest.dropWhile (continues (some c)) := by
    rw [List.cons_append, List.takeWhile_append_dropWhile]
  rw [htext, pieces_append, pieces_of_isWord_eq (List.cons_ne_nil _ _) fun d => isWord_of_mem_run]
  · rfl
  · intro d e hd he
    rw [isWord_of_mem_run (List.mem_of_mem_getLast? hd)]
    exact (isWord_ne_of_head?_dropWhile he).symm

theorem startsWith_of_not_continues {previous : Option Char} {c : Char} {rest : List Char}
    (hc : continues previous c = false)
    (h : isReference (c :: rest.takeWhile (continues (some c)))) :
    StartsWith previous (c :: rest) (c :: rest.takeWhile (continues (some c)))
      (rest.dropWhile (continues (some c))) where
  eq := by rw [List.cons_append, List.takeWhile_append_dropWhile]
  isReference := h
  before := by
    have hword := isWord_of_isReference h c List.mem_cons_self
    cases previous with
    | none => rfl
    | some b => simpa [continues, hword] using hc
  after := by
    have hword := isWord_of_isReference h c List.mem_cons_self
    cases hhead : (rest.dropWhile (continues (some c))).head? with
    | none => rfl
    | some d => simpa [hword] using isWord_ne_of_head?_dropWhile hhead

/-- Within a run the search finds nothing until the run ends; behind it, it finds what the pieces
that are left hold. -/
theorem search_append {offset : Nat} {previous : Option Char} {skipped left : List Char}
    (hskipped : ∀ c ∈ skipped, continues previous c = true)
    (hleft : ∀ c, left.head? = some c → continues previous c = false) :
    search offset previous (skipped ++ left) =
      locate (offset + byteLength skipped) (pieces left) := by
  generalize htext : skipped ++ left = text
  induction offset, previous, text using search.induct generalizing skipped left with
  | case1 offset previous text token rest hmatch ih =>
      have hstarts := Pattern.head?_ways_cellName_eq_some_iff.mp hmatch
      cases skipped with
      | cons c skipped =>
          have hdiffer : continues previous c = false := hstarts.not_continues (by simp [← htext])
          simp [hdiffer] at hskipped
      | nil =>
          obtain rfl : left = text := htext
          have hlater := @ih [] rest (by simp) (fun _ => hstarts.not_continues_rest) rfl
          rw [search_of_startsWith hstarts, hstarts.pieces_eq, locate, hlater]
          rfl
  | case2 offset previous hmatch =>
      obtain ⟨rfl, rfl⟩ := List.append_eq_nil_iff.mp htext
      rw [search_nil]
      rfl
  | case3 offset previous c rest hmatch ih =>
      have hnone : ∀ token left, ¬ StartsWith previous (c :: rest) token left := by
        intro token left h
        rw [Pattern.head?_ways_cellName_eq_some_iff.mpr h] at hmatch
        cases hmatch
      rw [search_cons hnone]
      cases skipped with
      | cons d skipped =>
          obtain ⟨rfl, rfl⟩ := List.cons.inj htext
          obtain ⟨hd, hskipped⟩ := List.forall_mem_cons.mp hskipped
          have hsame : continues (some d) = continues previous := continues_congr hd
          rw [ih (by rwa [hsame]) (by rwa [hsame]) rfl, byteLength, Nat.add_assoc]
      | nil =>
          obtain rfl : left = c :: rest := htext
          -- a new run begins; it is plain, for it would have been found otherwise
          have hplain : ¬ isReference (c :: rest.takeWhile (continues (some c))) := fun h =>
            hnone _ _ (startsWith_of_not_continues (hleft c rfl) h)
          have hlater : search (offset + c.utf8Size) (some c) rest =
              locate (offset + c.utf8Size + byteLength (rest.takeWhile (continues (some c))))
                (pieces (rest.dropWhile (continues (some c)))) := by
            apply ih
            · exact fun d hd => List.mem_takeWhile_imp hd
            · intro d hd
              rw [← Bool.not_eq_true, continues_some_iff]
              exact isWord_ne_of_head?_dropWhile hd
            · exact List.takeWhile_append_dropWhile
          rw [hlater, pieces_cons, if_neg hplain, locate, byteLength, byteLength, Nat.add_zero,
            Nat.add_assoc]

/-- The references of a text are what the search finds. -/
theorem search_eq_references (text : List Char) : search 0 none text = references text :=
  @search_append 0 none [] text (by simp) (fun _ _ => rfl)

end Spreadsheet.Formula
