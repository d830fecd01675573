import Mathlib.Algebra.Order.Ring.Int

/-!
# Calls that return, report an error, or panic

A Rust call of type `Result<T, E>` ends in one of three ways: it returns `Ok`, it returns `Err`, or
it panics. `Outcome` keeps the three apart, so that "never indexes out of bounds" and "is rejected
with an error" are different statements. Arithmetic on fixed-width integers is checked: an overflow
is a panic, as in a build with overflow checks.
-/

namespace Rust

/-- How a call ends. -/
inductive Outcome (ε α : Type) where
  | ok (value : α)
  | err (error : ε)
  | panic
  deriving DecidableEq, Repr

namespace Outcome

variable {ε ε' α β : Type}

protected def bind (x : Outcome ε α) (next : α → Outcome ε β) : Outcome ε β :=
  match x with
  | .ok value => next value
  | .err error => .err error
  | .panic => .panic

instance : Monad (Outcome ε) where
  pure := .ok
  bind := Outcome.bind

instance : MonadExceptOf ε (Outcome ε) where
  throw := .err
  tryCatch x handler :=
    match x with
    | .err error => handler error
    | other => other

/-- Translate the reported error, as `map_err` does. -/
def mapErr (translate : ε → ε') : Outcome ε α → Outcome ε' α
  | .ok value => .ok value
  | .err error => .err (translate error)
  | .panic => .panic

/-- `if bad { return Err(error) }`. -/
def rejectIf (bad : Prop) [Decidable bad] (error : ε) : Outcome ε Unit :=
  if bad then .err error else .ok ()

/-- `option.ok_or(error)`. -/
def okOr (option : Option α) (error : ε) : Outcome ε α :=
  match option with
  | some value => .ok value
  | none => .err error

/-- The call returned an error: no value, and no panic. -/
def Rejected (x : Outcome ε α) : Prop := ∃ error, x = .err error

/-- The call returned a value with this property. -/
def Returns (x : Outcome ε α) (property : α → Prop) : Prop :=
  match x with
  | .ok value => property value
  | _ => False

instance (x : Outcome ε α) (property : α → Prop) [DecidablePred property] : Decidable (x.Returns property) :=
  match x with
  | .ok value => inferInstanceAs (Decidable (property value))
  | .err _ => isFalse id
  | .panic => isFalse id

@[simp] theorem pure_eq_ok (value : α) : (pure value : Outcome ε α) = .ok value := rfl

@[simp] theorem throw_eq_err (error : ε) : (throw error : Outcome ε α) = .err error := rfl

@[simp] theorem ok_bind (value : α) (next : α → Outcome ε β) : (Outcome.ok value >>= next) = next value := rfl

@[simp] theorem err_bind (error : ε) (next : α → Outcome ε β) : (Outcome.err error >>= next) = .err error := rfl

@[simp] theorem panic_bind (next : α → Outcome ε β) : ((Outcome.panic : Outcome ε α) >>= next) = .panic := rfl

@[simp] theorem mapErr_ok (translate : ε → ε') (value : α) :
    mapErr translate (.ok value : Outcome ε α) = .ok value := rfl

@[simp] theorem mapErr_err (translate : ε → ε') (error : ε) :
    mapErr translate (.err error : Outcome ε α) = .err (translate error) := rfl

@[simp] theorem rejected_err (error : ε) : (Outcome.err error : Outcome ε α).Rejected := ⟨error, rfl⟩

theorem rejectIf_of_not {bad : Prop} [Decidable bad] (error : ε) (h : ¬ bad) : rejectIf bad error = .ok () :=
  if_neg h

theorem rejectIf_ne_panic (bad : Prop) [Decidable bad] (error : ε) : rejectIf bad error ≠ .panic := by
  rw [rejectIf]
  split <;> simp

theorem rejectIf_eq_ok {bad : Prop} [Decidable bad] {error : ε} {done : Unit} :
    rejectIf bad error = .ok done ↔ ¬ bad := by
  by_cases h : bad <;> simp [rejectIf, h]

theorem okOr_eq_ok {option : Option α} {error : ε} {value : α} : okOr option error = .ok value ↔ option = some value := by
  cases option <;> simp [okOr]

theorem rejectIf_of {bad : Prop} [Decidable bad] (error : ε) (h : bad) : rejectIf bad error = .err error :=
  if_pos h

instance : LawfulMonad (Outcome ε) :=
  LawfulMonad.mk' (Outcome ε) (fun x => by cases x <;> rfl) (fun _ _ => rfl)
    (fun x _ _ => by cases x <;> rfl)

theorem bind_eq_ok {x : Outcome ε α} {next : α → Outcome ε β} {result : β} :
    x >>= next = .ok result ↔ ∃ value, x = .ok value ∧ next value = .ok result := by
  cases x <;> simp

theorem returns_iff {x : Outcome ε α} {property : α → Prop} :
    x.Returns property ↔ ∃ value, x = .ok value ∧ property value := by
  cases x <;> simp [Returns]

theorem mapErr_eq_ok {translate : ε → ε'} {x : Outcome ε α} {value : α} :
    x.mapErr translate = .ok value ↔ x = .ok value := by
  cases x <;> simp [mapErr]

theorem rejected_mapErr {translate : ε → ε'} {x : Outcome ε α} : (x.mapErr translate).Rejected ↔ x.Rejected := by
  cases x <;> simp [mapErr, Rejected]

theorem not_rejected_ok (value : α) : ¬ (Outcome.ok value : Outcome ε α).Rejected := by
  simp [Rejected]

theorem not_rejected_panic : ¬ (Outcome.panic : Outcome ε α).Rejected := by
  simp [Rejected]

/-- A sequence of calls reports an error where one of them does. -/
theorem rejected_bind {x : Outcome ε α} {next : α → Outcome ε β} :
    (x >>= next).Rejected ↔ x.Rejected ∨ ∃ value, x = .ok value ∧ (next value).Rejected := by
  cases x <;> simp [Rejected]

end Outcome

/-! ### Checked arithmetic -/

/-- Addition on `usize`, sixty-four bits wide. -/
def usizeAdd {ε : Type} (a b : Nat) : Outcome ε Nat :=
  if a + b < 2 ^ 64 then .ok (a + b) else .panic

/-- Addition on `u64`. -/
def u64Add {ε : Type} (a b : UInt64) : Outcome ε UInt64 :=
  if a.toNat + b.toNat < 2 ^ 64 then .ok (a + b) else .panic

/-- Addition on `u32`. -/
def u32Add {ε : Type} (a b : UInt32) : Outcome ε UInt32 :=
  if a.toNat + b.toNat < 2 ^ 32 then .ok (a + b) else .panic

/-- Subtraction on `u64`. -/
def u64Sub {ε : Type} (a b : UInt64) : Outcome ε UInt64 :=
  if b ≤ a then .ok (a - b) else .panic

/-- Multiplication on `u64`. -/
def u64Mul {ε : Type} (a b : UInt64) : Outcome ε UInt64 :=
  if a.toNat * b.toNat < 2 ^ 64 then .ok (a * b) else .panic

variable {ε : Type}

theorem usizeAdd_of_lt {a b : Nat} (h : a + b < 2 ^ 64) : (usizeAdd a b : Outcome ε Nat) = .ok (a + b) :=
  if_pos h

theorem u64Add_of_lt {a b : UInt64} (h : a.toNat + b.toNat < 2 ^ 64) :
    (u64Add a b : Outcome ε UInt64) = .ok (a + b) :=
  if_pos h

theorem u64Add_of_not_lt {a b : UInt64} (h : ¬ a.toNat + b.toNat < 2 ^ 64) : (u64Add a b : Outcome ε UInt64) = .panic :=
  if_neg h

theorem u64Add_ne_err (a b : UInt64) (error : ε) : (u64Add a b : Outcome ε UInt64) ≠ .err error := by
  rw [u64Add]
  split <;> simp

theorem u64Mul_of_lt {a b : UInt64} (h : a.toNat * b.toNat < 2 ^ 64) : (u64Mul a b : Outcome ε UInt64) = .ok (a * b) :=
  if_pos h

theorem toNat_mul_of_lt {a b : UInt64} (h : a.toNat * b.toNat < 2 ^ 64) : (a * b).toNat = a.toNat * b.toNat := by
  rw [UInt64.toNat_mul, Nat.mod_eq_of_lt h]

theorem toNat_add_of_lt {a b : UInt64} (h : a.toNat + b.toNat < 2 ^ 64) :
    (a + b).toNat = a.toNat + b.toNat := by
  rw [UInt64.toNat_add, Nat.mod_eq_of_lt h]

theorem toNat_of_u64Add {a b sum : UInt64} (h : (u64Add a b : Outcome ε UInt64) = .ok sum) :
    sum.toNat = a.toNat + b.toNat := by
  by_cases hlt : a.toNat + b.toNat < 2 ^ 64
  · rw [u64Add_of_lt hlt] at h
    obtain rfl := Outcome.ok.inj h
    exact toNat_add_of_lt hlt
  · rw [u64Add_of_not_lt hlt] at h
    exact nomatch h

theorem toNat_of_u64Sub {a b difference : UInt64} (h : (u64Sub a b : Outcome ε UInt64) = .ok difference) :
    difference.toNat = a.toNat - b.toNat := by
  rw [u64Sub] at h
  by_cases hle : b ≤ a
  · rw [if_pos hle] at h
    rw [← Outcome.ok.inj h, UInt64.toNat_sub_of_le a b hle]
  · rw [if_neg hle] at h
    exact nomatch h

theorem u64Add_zero_left (b : UInt64) : (u64Add 0 b : Outcome ε UInt64) = .ok b := by
  have hlt : (0 : UInt64).toNat + b.toNat < 2 ^ 64 := by simpa using b.toNat_lt
  rw [u64Add_of_lt hlt, UInt64.zero_add]

end Rust
