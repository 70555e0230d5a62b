import QueryPushdown.Eval.Pull
import QueryPushdown.Pattern.Search
import QueryPushdown.Value.Compare

/-!
# Operators on values

Integer arithmetic fails on overflow, arithmetic of mixed numbers is done in floats, and division
always gives a float. Addition also joins texts, lists and mappings. Aggregates reduce a sequence
that is pulled.
-/

namespace QueryPushdown.Operator

/-- An integer that fits into 64 bits. -/
def fit? (i : Int) : Option Int64 :=
  if -(2 ^ 63) ≤ i ∧ i < 2 ^ 63 then some (Int64.ofInt i) else none

def unary (op : UnaryOp) (v : Value) : Outcome Value :=
  match op, v with
  | .not, .bool b => .ok (.bool !b)
  | .neg, .int i =>
    match fit? (-i.toInt) with
    | some i => .ok (.int i)
    | none => .error (.fault .negationOverflow)
  | .neg, .float x => .ok (.float (-x))
  | op, v => .error (.fault (.cannotApply op v.kind))

def mismatch (op : BinaryOp) (a b : Value) : Error := .fault (.operandKinds op a.kind b.kind)

/-- Exact arithmetic on two integers, float arithmetic on any other numbers. -/
def arithmetic (op : BinaryOp) (exact : Int → Int → Int)
    (rounded : Binary64 → Binary64 → Binary64) (a b : Value) : Outcome Value :=
  match a, b with
  | .int i, .int j =>
    match fit? (exact i.toInt j.toInt) with
    | some k => .ok (.int k)
    | none => .error (.fault (.overflow op))
  | a, b =>
    match a.asFloat?, b.asFloat? with
    | some x, some y => .ok (.float (rounded x y))
    | _, _ => .error (mismatch op a b)

def addNumbers (a b : Value) : Outcome Value := arithmetic .add (· + ·) (· + ·) a b

def add : Value → Value → Outcome Value
  | .text s, .text t => .ok (.text (s ++ t))
  | .list xs, .list ys => .ok (.list (xs ++ ys))
  | .mapping fs, .mapping gs => .ok (.mapping (Fields.extend fs gs))
  | a, b => addNumbers a b

def divide (a b : Value) : Outcome Value :=
  match a.asFloat?, b.asFloat? with
  | some x, some y =>
    if y.isZero then .error (.fault .divisionByZero) else .ok (.float (x / y))
  | _, _ => .error (mismatch .div a b)

/-- Whether a text contains a match of a pattern. -/
def matching (text pattern : String) : Outcome Bool :=
  match Pattern.search pattern text with
  | .ok found => .ok found
  | .error .unreadable => .error (.fault .patternMalformed)
  | .error .tooLarge => .error (.fault .patternTooLarge)

/-- An operator on two values. -/
def binary (op : BinaryOp) (a b : Value) : Outcome Value :=
  let ordered (test : Ordering → Bool) : Outcome Value := do
    pure (.bool (test (← a.compare? b)))
  match op with
  | .eq => .ok (.bool (a.isEq b))
  | .ne => .ok (.bool !(a.isEq b))
  | .ge => ordered Ordering.isGE
  | .gt => ordered Ordering.isGT
  | .le => ordered Ordering.isLE
  | .lt => ordered Ordering.isLT
  | .add => add a b
  | .sub => arithmetic .sub (· - ·) (· - ·) a b
  | .mul => arithmetic .mul (· * ·) (· * ·) a b
  | .div => divide a b
  | .and => do
    let a ← a.toBool
    let b ← b.toBool
    pure (.bool (a && b))
  | .or => do
    let a ← a.toBool
    let b ← b.toBool
    pure (.bool (a || b))
  | .matching =>
    match a, b with
    | .text text, .text pattern => do pure (.bool (← matching text pattern))
    | a, b => .error (mismatch .matching a b)

/-- Adds an element to a running sum. -/
def accumulate (sum v : Value) : Outcome Value :=
  if v.isNumber then addNumbers sum v else .error (.fault (.cannotSum v.kind))

/-- The element to keep of the best one so far and a later one, which must be strictly better. -/
def better (test : Ordering → Bool) (best : Option Value) (v : Value) : Outcome (Option Value) :=
  match best with
  | none => .ok (some v)
  | some current => do
    if test (← v.compare? current) then pure (some v) else pure (some current)

/-- The first element that no later one betters, null for an empty sequence. -/
def extreme (test : Ordering → Bool) (ps : Pulls) : Run Value := do
  let best ← ps.foldRun (fun best v => .ofOutcome (better test best v)) none
  pure (best.getD .null)

/-- Reduces a sequence. A sum drains the sequence even after a failure. -/
def aggregate (op : AggregateOp) (ps : Pulls) : Run Value :=
  match op with
  | .len => do
    let length ← ps.foldRun (fun (n : Nat) _ => pure (n + 1)) 0
    pure (.int (Int64.ofNat length))
  | .sum => ps.foldAll accumulate (.ok (.int 0))
  | .min => extreme Ordering.isLT ps
  | .max => extreme Ordering.isGT ps

end QueryPushdown.Operator
