import Mathlib.Logic.Basic
import Spreadsheet.Arithmetic.Grammar

/-!
# Readings of tokens

The parser as a relation between the tokens it starts from and the tokens it leaves.
-/

namespace Spreadsheet.Arithmetic

/-- The operand on the right of an operator, which a range before a closing parenthesis lacks. -/
def right? (operator : Operator) (levels : Nat) (tokens : List Token) :
    Option (Expression × List Token) :=
  match operator, tokens with
  | .range, .closing :: rest => some (.unit, .closing :: rest)
  | _, rest => signed? levels rest

inductive Task where
  | expression
  | signed
  | operand
  | right (operator : Operator)
  | operators (parent : Nat) (root : Expression)

def Task.run? (task : Task) (levels : Nat) (tokens : List Token) :
    Option (Expression × List Token) :=
  match task with
  | .expression => expression? levels tokens
  | .signed => signed? levels tokens
  | .operand => operand? levels tokens
  | .right operator => right? operator levels tokens
  | .operators parent root => operators? levels parent root tokens

/-- Whether no operator in front continues an operand that stands under precedence `parent`. -/
def Stops (parent : Nat) (tokens : List Token) : Prop :=
  ∀ operator, Token.nextOperator? tokens = some operator → continues operator parent = false

inductive Reads : Task → Nat → List Token → Expression → List Token → Prop where
  | number {levels : Nat} {rest : List Token} (value : Float) :
    Reads .operand levels (.number value :: rest) (.number value) rest
  | unit {levels : Nat} {rest : List Token} : Reads .operand levels (.unit :: rest) .unit rest
  | parentheses {levels : Nat} {tokens rest : List Token} {inner : Expression}
    (h : Reads .expression levels tokens inner (.closing :: rest)) :
    Reads .operand (levels + 1) (.opening :: tokens) inner rest
  | start {levels : Nat} {rest : List Token} :
    Reads .operand levels (.range :: rest) .start (.range :: rest)
  | negate {levels : Nat} {tokens rest : List Token} {operand : Expression}
    (h : Reads .signed levels tokens operand rest) :
    Reads .signed (levels + 1) (.minus :: tokens) (.negate operand) rest
  | keep {levels : Nat} {tokens rest : List Token} {operand : Expression}
    (h : Reads .signed levels tokens operand rest) :
    Reads .signed (levels + 1) (.plus :: tokens) (.keep operand) rest
  | operand {levels : Nat} {tokens rest : List Token} {operand : Expression}
    (h : Reads .operand levels tokens operand rest) (hdot : rest.head? ≠ some .dot) :
    Reads .signed levels tokens operand rest
  | missing {levels : Nat} {rest : List Token} :
    Reads (.right .range) levels (.closing :: rest) .unit (.closing :: rest)
  | right {levels : Nat} {tokens rest : List Token} {operator : Operator} {operand : Expression}
    (h : Reads .signed levels tokens operand rest) :
    Reads (.right operator) levels tokens operand rest
  | stop {levels parent : Nat} {tokens : List Token} {root : Expression}
    (h : Stops parent tokens) : Reads (.operators parent root) levels tokens root tokens
  | operator {levels parent : Nat} {token : Token} {tokens mid between rest : List Token}
    {operator : Operator} {root operand right result : Expression}
    (htoken : token.operator? = some operator) (hcontinues : continues operator parent = true)
    (hoperand : Reads (.right operator) (levels + 1) tokens operand mid)
    (hright : Reads (.operators operator.precedence operand) levels mid right between)
    (h : Reads (.operators parent (.binary operator root right)) levels between result rest) :
    Reads (.operators parent root) (levels + 1) (token :: tokens) result rest
  | expression {levels : Nat} {tokens mid rest : List Token} {root result : Expression}
    (hroot : Reads .signed levels tokens root mid)
    (h : Reads (.operators 1 root) levels mid result rest) :
    Reads .expression (levels + 1) tokens result rest

variable {levels parent : Nat} {token : Token} {tokens rest : List Token} {operator : Operator}
  {root result : Expression}

/-! ### Equations of the parser -/

theorem stops_of_not_bindsTighter
    (h : bindsTighter (Token.nextOperator? tokens) operator = false) :
    Stops operator.precedence tokens := by
  intro next hnext
  rw [hnext] at h
  cases next <;> cases operator <;> revert h <;> decide

theorem operators?_of_stops (h : Stops parent tokens) :
    operators? levels parent root tokens = some (root, tokens) := by
  rw [operators?.eq_def]
  cases tokens with
  | nil => rfl
  | cons token rest =>
      dsimp only
      cases htoken : token.operator? with
      | none => rfl
      | some operator =>
          have hstop := h operator htoken
          simp [hstop]

theorem right?_eq_signed? (h : ∀ rest, operator = .range → tokens = .closing :: rest → False) :
    right? operator levels tokens = signed? levels tokens := by
  unfold right?
  split
  · exact (h _ rfl rfl).elim
  · rfl

theorem operators?_zero (htoken : token.operator? = some operator)
    (hcontinues : continues operator parent = true) :
    operators? 0 parent root (token :: rest) = none := by
  rw [operators?.eq_def]
  simp only [htoken, hcontinues, if_true]
  split <;> simp

theorem operators?_succ (htoken : token.operator? = some operator)
    (hcontinues : continues operator parent = true) :
    operators? (levels + 1) parent root (token :: rest) =
      (right? operator (levels + 1) rest).bind fun (operand, mid) =>
        (operators? levels operator.precedence operand mid).bind fun (right, between) =>
          operators? levels parent (.binary operator root right) between := by
  have hright : ∀ operand mid,
      (if bindsTighter (Token.nextOperator? mid) operator = true then
          (operators? levels operator.precedence operand mid).bind fun (right, between) =>
            operators? levels parent (.binary operator root right) between
        else operators? levels parent (.binary operator root operand) mid) =
      (operators? levels operator.precedence operand mid).bind fun (right, between) =>
        operators? levels parent (.binary operator root right) between := by
    intro operand mid
    cases htighter : bindsTighter (Token.nextOperator? mid) operator with
    | true => rfl
    | false =>
        rw [operators?_of_stops (stops_of_not_bindsTighter htighter)]
        rfl
  rw [operators?.eq_def]
  simp only [htoken, hcontinues, if_true]
  split
  · rename_i rest
    exact hright .unit (.closing :: rest)
  · rename_i hmissing
    rw [right?_eq_signed? hmissing]
    congr 1
    funext pair
    obtain ⟨operand, mid⟩ := pair
    exact hright operand mid

/-! ### Readings are what the parser does -/

section

variable (ih : ∀ fewer < levels, ∀ task : Task, ∀ {tokens result rest},
  task.run? fewer tokens = some (result, rest) → Reads task fewer tokens result rest)

include ih

theorem reads_of_operand? (h : operand? levels tokens = some (result, rest)) :
    Reads .operand levels tokens result rest := by
  rw [operand?.eq_def] at h
  split at h
  · cases h
    exact .number _
  · cases h
    exact .unit
  · rename_i fewer tokens
    simp only [Option.bind_eq_bind, Option.bind_eq_some_iff, Prod.exists] at h
    obtain ⟨inner, mid, hinner, h⟩ := h
    split at h
    · cases h
      exact .parentheses (ih fewer fewer.lt_succ_self .expression hinner)
    · cases h
  · cases h
    exact .start
  · cases h

theorem reads_of_signed? (h : signed? levels tokens = some (result, rest)) :
    Reads .signed levels tokens result rest := by
  rw [signed?.eq_def] at h
  split at h
  · cases h
  · cases h
  · rename_i fewer tokens
    simp only [Option.bind_eq_bind, Option.bind_eq_some_iff, Prod.exists] at h
    obtain ⟨operand, mid, hinner, h⟩ := h
    cases h
    exact .negate (ih fewer fewer.lt_succ_self .signed hinner)
  · rename_i fewer tokens
    simp only [Option.bind_eq_bind, Option.bind_eq_some_iff, Prod.exists] at h
    obtain ⟨operand, mid, hinner, h⟩ := h
    cases h
    exact .keep (ih fewer fewer.lt_succ_self .signed hinner)
  · simp only [Option.bind_eq_bind, Option.bind_eq_some_iff, Prod.exists] at h
    obtain ⟨operand, mid, hinner, h⟩ := h
    split at h
    · cases h
    · rename_i hdot
      cases h
      refine .operand (reads_of_operand? ih hinner) fun hhead => ?_
      obtain ⟨tail, rfl⟩ := List.head?_eq_some_iff.mp hhead
      exact hdot tail rfl

theorem reads_of_right? (h : right? operator levels tokens = some (result, rest)) :
    Reads (.right operator) levels tokens result rest := by
  unfold right? at h
  split at h
  · cases h
    exact .missing
  · exact .right (reads_of_signed? ih h)

theorem reads_of_operators? (h : operators? levels parent root tokens = some (result, rest)) :
    Reads (.operators parent root) levels tokens result rest := by
  by_cases hstops : Stops parent tokens
  · rw [operators?_of_stops hstops] at h
    cases h
    exact .stop hstops
  · simp only [Stops, not_forall, Bool.not_eq_false] at hstops
    obtain ⟨operator, hnext, hcontinues⟩ := hstops
    cases tokens with
    | nil => cases hnext
    | cons token tokens =>
        cases levels with
        | zero =>
            rw [operators?_zero hnext hcontinues] at h
            cases h
        | succ fewer =>
            rw [operators?_succ hnext hcontinues] at h
            simp only [Option.bind_eq_some_iff, Prod.exists] at h
            obtain ⟨operand, mid, hoperand, right, between, hright, h⟩ := h
            exact .operator hnext hcontinues (reads_of_right? ih hoperand)
              (ih fewer fewer.lt_succ_self (.operators _ _) hright)
              (ih fewer fewer.lt_succ_self (.operators _ _) h)

theorem reads_of_expression? (h : expression? levels tokens = some (result, rest)) :
    Reads .expression levels tokens result rest := by
  rw [expression?.eq_def] at h
  split at h
  · cases h
  · rename_i fewer
    simp only [Option.bind_eq_bind, Option.bind_eq_some_iff, Prod.exists] at h
    obtain ⟨root, mid, hroot, h⟩ := h
    exact .expression (ih fewer fewer.lt_succ_self .signed hroot)
      (ih fewer fewer.lt_succ_self (.operators _ _) h)

end

theorem reads_of_run? {task : Task} (h : task.run? levels tokens = some (result, rest)) :
    Reads task levels tokens result rest := by
  induction levels using Nat.strongRecOn generalizing task tokens result rest with
  | ind levels ih =>
    have hih := fun fewer hlt task {tokens result rest} h => @ih fewer hlt tokens rest result task h
    cases task with
    | expression => exact reads_of_expression? hih h
    | signed => exact reads_of_signed? hih h
    | operand => exact reads_of_operand? hih h
    | right operator => exact reads_of_right? hih h
    | operators parent root => exact reads_of_operators? hih h

theorem operand?_of_sign (h : token = .minus ∨ token = .plus) :
    operand? levels (token :: rest) = none := by
  rw [operand?.eq_def]
  obtain rfl | rfl := h <;> rfl

theorem signed?_of_operand? (h : operand? levels tokens = some (result, rest))
    (hdot : rest.head? ≠ some .dot) : signed? levels tokens = some (result, rest) := by
  rw [signed?.eq_def]
  split
  · rw [operand?_of_sign (.inl rfl)] at h
    cases h
  · rw [operand?_of_sign (.inr rfl)] at h
    cases h
  · rw [operand?_of_sign (.inl rfl)] at h
    cases h
  · rw [operand?_of_sign (.inr rfl)] at h
    cases h
  · rw [h]
    cases rest with
    | nil => rfl
    | cons token rest =>
        cases token with
        | dot => exact absurd rfl hdot
        | _ => rfl

theorem run?_of_reads {task : Task} (h : Reads task levels tokens result rest) :
    task.run? levels tokens = some (result, rest) := by
  induction h with
  | number value => simp [Task.run?, operand?]
  | unit => simp [Task.run?, operand?]
  | parentheses h ih =>
      simp only [Task.run?] at ih
      simp [Task.run?, operand?, ih]
  | start => simp [Task.run?, operand?]
  | negate h ih =>
      simp only [Task.run?] at ih
      simp [Task.run?, signed?, ih]
  | keep h ih =>
      simp only [Task.run?] at ih
      simp [Task.run?, signed?, ih]
  | operand h hdot ih => exact signed?_of_operand? ih hdot
  | missing => rfl
  | right h ih =>
      refine (right?_eq_signed? ?_).trans ih
      rintro rest - rfl
      cases h with
      | operand h hdot => cases h
  | stop h => exact operators?_of_stops h
  | operator htoken hcontinues hoperand hright h ihoperand ihright ih =>
      simp only [Task.run?] at ihoperand ihright ih
      simp [Task.run?, operators?_succ htoken hcontinues, ihoperand, ihright, ih]
  | expression hroot h ihroot ih =>
      simp only [Task.run?] at ihroot ih
      simp [Task.run?, expression?, ihroot, ih]

theorem reads_iff {task : Task} :
    Reads task levels tokens result rest ↔ task.run? levels tokens = some (result, rest) :=
  ⟨run?_of_reads, reads_of_run?⟩

theorem parse?_eq_some_iff :
    parse? tokens = some root ↔ Reads .expression levelLimit tokens root [] := by
  rw [reads_iff, Task.run?]
  unfold parse?
  split
  · rename_i hexpression
    simp [hexpression]
  · rename_i hexpression
    simp only [reduceCtorEq, false_iff]
    exact hexpression root

/-! ### What readings come to -/

def Token.isNumber : Token → Bool
  | .number _ => true
  | _ => false

def Meaning.isNumber : Meaning → Bool
  | .number _ => true
  | .unit | .start | .range => false

theorem Meaning.binary?_cases {left right meaning : Meaning}
    (h : binary? operator left right = some meaning) :
    (operator = .range ∧ left = .start ∧ right = .unit ∧ meaning = .range) ∨
      operator ≠ .range ∧ ∃ l r n, left = .number l ∧ right = .number r ∧ meaning = .number n := by
  unfold binary? at h
  split at h <;> simp only [Option.some.injEq, reduceCtorEq] at h <;> subst h <;> simp

def Expression.Means (numeric : Bool) (expression : Expression) : Prop :=
  ∃ meaning, expression.meaning? = some meaning ∧ meaning.isNumber = numeric

namespace Expression

variable {numeric : Bool} {operand left right : Expression}

theorem means_negate (h : (negate operand).Means numeric) : operand.Means numeric := by
  obtain ⟨meaning, hmeaning, hnumeric⟩ := h
  obtain ⟨inner, hinner, hnegate⟩ := Option.bind_eq_some_iff.mp hmeaning
  refine ⟨inner, hinner, ?_⟩
  cases inner <;> cases hnegate <;> exact hnumeric

theorem means_keep (h : (keep operand).Means numeric) : operand.Means numeric := by
  obtain ⟨meaning, hmeaning, hnumeric⟩ := h
  obtain ⟨inner, hinner, hkeep⟩ := Option.bind_eq_some_iff.mp hmeaning
  refine ⟨inner, hinner, ?_⟩
  cases inner <;> cases hkeep <;> exact hnumeric

theorem means_binary (h : (binary operator left right).Means numeric) :
    left.Means numeric ∧ right.Means numeric ∧ (numeric = true → operator ≠ .range) := by
  obtain ⟨meaning, hmeaning, hnumeric⟩ := h
  simp only [meaning?, Option.bind_eq_bind, Option.bind_eq_some_iff] at hmeaning
  obtain ⟨l, hl, r, hr, hbinary⟩ := hmeaning
  obtain ⟨rfl, rfl, rfl, rfl⟩ | ⟨hoperator, _, _, _, rfl, rfl, rfl⟩ := Meaning.binary?_cases hbinary
  · exact ⟨⟨_, hl, hnumeric⟩, ⟨_, hr, hnumeric⟩, by simp [← hnumeric, Meaning.isNumber]⟩
  · exact ⟨⟨_, hl, hnumeric⟩, ⟨_, hr, hnumeric⟩, fun _ => hoperator⟩

theorem means_number (value : Float) : (number value).Means true :=
  ⟨_, rfl, rfl⟩

theorem means_true_iff : operand.Means true ↔ ∃ value, operand.meaning? = some (.number value) := by
  constructor
  · rintro ⟨meaning, hmeaning, hnumeric⟩
    cases meaning <;> cases hnumeric
    exact ⟨_, hmeaning⟩
  · rintro ⟨value, hmeaning⟩
    exact ⟨_, hmeaning, rfl⟩

theorem negate_means (h : operand.Means true) : (negate operand).Means true := by
  obtain ⟨value, hvalue⟩ := means_true_iff.mp h
  exact means_true_iff.mpr ⟨-value, by rw [meaning?, hvalue]; rfl⟩

theorem keep_means (h : operand.Means true) : (keep operand).Means true := by
  obtain ⟨value, hvalue⟩ := means_true_iff.mp h
  exact means_true_iff.mpr ⟨value, by rw [meaning?, hvalue]; rfl⟩

theorem binary_means (hoperator : operator ≠ .range) (hleft : left.Means true)
    (hright : right.Means true) : (binary operator left right).Means true := by
  obtain ⟨l, hl⟩ := means_true_iff.mp hleft
  obtain ⟨r, hr⟩ := means_true_iff.mp hright
  cases operator with
  | range => exact absurd rfl hoperator
  | _ => exact means_true_iff.mpr ⟨_, by rw [meaning?, hl, hr]; rfl⟩

end Expression

namespace Reads

variable {task : Task} {numeric : Bool} {mid between : List Token} {operand right : Expression}

/-- Where operators are read, the operand before them means something of the same kind. -/
theorem root_means (h : Reads (.operators parent root) levels tokens result rest)
    (hresult : result.Means numeric) : root.Means numeric := by
  generalize htask : Task.operators parent root = task at h
  induction h generalizing parent root with
  | stop h =>
      cases htask
      exact hresult
  | operator htoken hcontinues hoperand hright h ihoperand ihright ih =>
      cases htask
      exact (Expression.means_binary (ih hresult rfl)).1
  | _ => cases htask

theorem means_of_operator
    (hright : Reads (.operators operator.precedence operand) levels mid right between)
    (h : Reads (.operators parent (.binary operator root right)) levels between result rest)
    (hresult : result.Means numeric) :
    root.Means numeric ∧ operand.Means numeric ∧ right.Means numeric ∧
      (numeric = true → operator ≠ .range) := by
  obtain ⟨hroot, hmeans, hoperator⟩ := Expression.means_binary (h.root_means hresult)
  exact ⟨hroot, hright.root_means hmeans, hmeans, hoperator⟩

/-- Where a reading comes to the start of a range, the range has yet to be read. -/
theorem of_start (h : Reads task levels tokens result rest)
    (hstart : result.meaning? = some .start) :
    match task with
    | .expression => False
    | .signed | .operand | .right _ => Token.nextOperator? rest = some .range
    | .operators parent root => root.meaning? = some .start ∧ rest = tokens ∧ Stops parent tokens := by
  induction h with
  | number value => cases hstart
  | unit => cases hstart
  | parentheses h ih => exact (ih hstart).elim
  | start => rfl
  | negate h ih =>
      obtain ⟨inner, hinner, hnegate⟩ := Option.bind_eq_some_iff.mp hstart
      cases inner <;> cases hnegate
      exact ih hinner
  | keep h ih =>
      obtain ⟨inner, hinner, hkeep⟩ := Option.bind_eq_some_iff.mp hstart
      cases inner <;> cases hkeep
      exact ih hinner
  | operand h hdot ih => exact ih hstart
  | missing => cases hstart
  | right h ih => exact ih hstart
  | stop h => exact ⟨hstart, rfl, h⟩
  | operator htoken hcontinues hoperand hright h ihoperand ihright ih =>
      obtain ⟨hbinary, -⟩ := ih hstart
      simp only [Expression.meaning?, Option.bind_eq_bind, Option.bind_eq_some_iff] at hbinary
      obtain ⟨l, -, r, -, hbinary⟩ := hbinary
      obtain ⟨-, -, -, h⟩ | ⟨-, _, _, _, -, -, h⟩ := Meaning.binary?_cases hbinary <;> cases h
  | expression hroot h ihroot ih =>
      obtain ⟨hmeaning, rfl, hstops⟩ := ih hstart
      exact absurd (hstops _ (ihroot hmeaning)) (by decide)

/-- What comes to no number has no number in it. -/
theorem exists_used_without_numbers (h : Reads task levels tokens result rest)
    (hresult : result.Means false) :
    ∃ used, tokens = used ++ rest ∧ ∀ token ∈ used, token.isNumber = false := by
  induction h with
  | number value => obtain ⟨_, ⟨⟩, ⟨⟩⟩ := hresult
  | unit => exact ⟨[.unit], rfl, by simp [Token.isNumber]⟩
  | parentheses h ih =>
      obtain ⟨used, rfl, hused⟩ := ih hresult
      refine ⟨.opening :: (used ++ [.closing]), by simp, List.forall_mem_cons.mpr ⟨rfl, ?_⟩⟩
      exact List.forall_mem_append.mpr ⟨hused, by simp [Token.isNumber]⟩
  | start => exact ⟨[], rfl, by simp⟩
  | negate h ih =>
      obtain ⟨used, rfl, hused⟩ := ih (Expression.means_negate hresult)
      exact ⟨.minus :: used, rfl, List.forall_mem_cons.mpr ⟨rfl, hused⟩⟩
  | keep h ih =>
      obtain ⟨used, rfl, hused⟩ := ih (Expression.means_keep hresult)
      exact ⟨.plus :: used, rfl, List.forall_mem_cons.mpr ⟨rfl, hused⟩⟩
  | operand h hdot ih => exact ih hresult
  | missing => exact ⟨[], rfl, by simp⟩
  | right h ih => exact ih hresult
  | stop h => exact ⟨[], rfl, by simp⟩
  | @operator _ _ token _ _ _ _ _ _ _ _ _ htoken _ _ hright h ihoperand ihright ih =>
      obtain ⟨-, hmeans, hrightMeans, -⟩ := hright.means_of_operator h hresult
      obtain ⟨operandUsed, rfl, hoperandUsed⟩ := ihoperand hmeans
      obtain ⟨rightUsed, rfl, hrightUsed⟩ := ihright hrightMeans
      obtain ⟨used, rfl, hused⟩ := ih hresult
      have hnumber : token.isNumber = false := by cases token <;> first | rfl | cases htoken
      refine ⟨token :: (operandUsed ++ (rightUsed ++ used)), by simp, ?_⟩
      rw [List.forall_mem_cons, List.forall_mem_append, List.forall_mem_append]
      exact ⟨hnumber, hoperandUsed, hrightUsed, hused⟩
  | expression hroot h ihroot ih =>
      obtain ⟨used, rfl, hused⟩ := ihroot (h.root_means hresult)
      obtain ⟨more, rfl, hmore⟩ := ih hresult
      exact ⟨used ++ more, by simp, List.forall_mem_append.mpr ⟨hused, hmore⟩⟩

/-- More levels do no harm. -/
theorem mono (h : Reads task levels tokens result rest) {more : Nat} (hle : levels ≤ more) :
    Reads task more tokens result rest := by
  induction h generalizing more with
  | number value => exact .number value
  | unit => exact .unit
  | parentheses h ih =>
      obtain ⟨more, rfl⟩ := Nat.exists_eq_add_of_le' (Nat.le_trans (Nat.le_add_left 1 _) hle)
      exact .parentheses (ih (Nat.le_of_succ_le_succ hle))
  | start => exact .start
  | negate h ih =>
      obtain ⟨more, rfl⟩ := Nat.exists_eq_add_of_le' (Nat.le_trans (Nat.le_add_left 1 _) hle)
      exact .negate (ih (Nat.le_of_succ_le_succ hle))
  | keep h ih =>
      obtain ⟨more, rfl⟩ := Nat.exists_eq_add_of_le' (Nat.le_trans (Nat.le_add_left 1 _) hle)
      exact .keep (ih (Nat.le_of_succ_le_succ hle))
  | operand h hdot ih => exact .operand (ih hle) hdot
  | missing => exact .missing
  | right h ih => exact .right (ih hle)
  | stop h => exact .stop h
  | operator htoken hcontinues hoperand hright h ihoperand ihright ih =>
      obtain ⟨more, rfl⟩ := Nat.exists_eq_add_of_le' (Nat.le_trans (Nat.le_add_left 1 _) hle)
      have hle' := Nat.le_of_succ_le_succ hle
      exact .operator htoken hcontinues (ihoperand hle) (ihright hle') (ih hle')
  | expression hroot h ihroot ih =>
      obtain ⟨more, rfl⟩ := Nat.exists_eq_add_of_le' (Nat.le_trans (Nat.le_add_left 1 _) hle)
      have hle' := Nat.le_of_succ_le_succ hle
      exact .expression (ihroot hle') (ih hle')

end Reads

end Spreadsheet.Arithmetic
