namespace XmlQuery.Decimal

/-!
# Numbers written in digits

* `digitValue?` — the value of a digit in bases up to sixteen.
* `natural?` — the number that a nonempty run of digits stands for.
* `unsigned?`, `signed?` — the same with a sign in front, and below a bound.
-/

/-- The value of a hexadecimal digit in either case, and so of a digit of any smaller base. -/
def digitValue? (c : Char) : Option Nat :=
  if '0' ≤ c ∧ c ≤ '9' then some (c.toNat - '0'.toNat)
  else if 'a' ≤ c ∧ c ≤ 'f' then some (c.toNat - 'a'.toNat + 10)
  else if 'A' ≤ c ∧ c ≤ 'F' then some (c.toNat - 'A'.toNat + 10)
  else none

/-- The number that digits of base `base` stand for after a first part worth `n`. -/
def naturalFrom? (base n : Nat) : List Char → Option Nat
  | [] => some n
  | c :: cs =>
    match digitValue? c with
    | some d => if d < base then naturalFrom? base (n * base + d) cs else none
    | none => none

/-- The number that a nonempty run of digits of base `base` stands for. -/
def natural? (base : Nat) (cs : List Char) : Option Nat :=
  if cs = [] then none else naturalFrom? base 0 cs

/-- A number below `bound` written in digits of base `base`, with or without a plus sign. -/
def unsigned? (base bound : Nat) (cs : List Char) : Option Nat :=
  let digits :=
    match cs with
    | '+' :: rest => rest
    | _ => cs
  match natural? base digits with
  | some n => if n < bound then some n else none
  | none => none

/-- A whole number from `-bound` up to `bound - 1` written in decimal digits, with or without a
    sign. -/
def signed? (bound : Nat) (cs : List Char) : Option Int :=
  match cs with
  | '-' :: rest =>
    match natural? 10 rest with
    | some n => if n ≤ bound then some (-(n : Int)) else none
    | none => none
  | _ =>
    match unsigned? 10 bound cs with
    | some n => some (n : Int)
    | none => none

end XmlQuery.Decimal
