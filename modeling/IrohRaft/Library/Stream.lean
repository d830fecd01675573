import IrohRaft.Library.Bytes

/-!
# Reading and writing byte streams

A computation over a stream says how it ends and what it leaves of the stream, also when it fails.
Reads and writes of consecutive pieces compose to one read or write of the whole
(`readExact_add`, `writeAll_append`), so a loop over chunks does what one call does, up to the text
of the error it reports.
-/

namespace Rust

/-- A computation over a state, which it leaves changed also when it fails. -/
def Action (σ ε α : Type) : Type := σ → Outcome ε α × σ

namespace Action

variable {σ ε ε' ε'' α β : Type}

protected def pure (value : α) : Action σ ε α := fun state => (.ok value, state)

protected def bind (x : Action σ ε α) (next : α → Action σ ε β) : Action σ ε β := fun state =>
  match x state with
  | (.ok value, state) => next value state
  | (.err error, state) => (.err error, state)
  | (.panic, state) => (.panic, state)

instance : Monad (Action σ ε) where
  pure := Action.pure
  bind := Action.bind

def mapErr (translate : ε → ε') (x : Action σ ε α) : Action σ ε' α :=
  fun state => ((x state).1.mapErr translate, (x state).2)

def lift (x : Outcome ε α) : Action σ ε α := fun state => (x, state)

/-- Whether the computation returned, where an error is no failure of what goes on. -/
def succeeds (x : Action σ ε α) : Action σ ε' Bool := fun state =>
  match x state with
  | (.ok _, state) => (.ok true, state)
  | (.err _, state) => (.ok false, state)
  | (.panic, state) => (.panic, state)

def onPart {τ : Type} (part : σ → τ) (replace : σ → τ → σ) (x : Action τ ε α) : Action σ ε α :=
  fun state => ((x (part state)).1, replace state (x (part state)).2)

theorem pure_apply (value : α) (state : σ) : (pure value : Action σ ε α) state = (.ok value, state) := rfl

theorem bind_of_ok {x : Action σ ε α} {next : α → Action σ ε β} {state state' : σ} {value : α}
    (h : x state = (.ok value, state')) : (x >>= next) state = next value state' := by
  show Action.bind x next state = _
  rw [Action.bind, h]

theorem bind_of_err {x : Action σ ε α} {next : α → Action σ ε β} {state state' : σ} {error : ε}
    (h : x state = (.err error, state')) : (x >>= next) state = (.err error, state') := by
  show Action.bind x next state = _
  rw [Action.bind, h]

theorem bind_of_panic {x : Action σ ε α} {next : α → Action σ ε β} {state state' : σ}
    (h : x state = (.panic, state')) : (x >>= next) state = (.panic, state') := by
  show Action.bind x next state = _
  rw [Action.bind, h]

/-- A result comes from a first result and a second computation. -/
theorem bind_eq_ok {x : Action σ ε α} {next : α → Action σ ε β} {state after : σ} {result : β} :
    (x >>= next) state = (.ok result, after) ↔
      ∃ value between, x state = (.ok value, between) ∧ next value between = (.ok result, after) := by
  rcases hx : x state with ⟨value | error | _, between⟩
  · simp [bind_of_ok hx]
  · simp [bind_of_err hx]
  · simp [bind_of_panic hx]

theorem onPart_eq_ok {τ : Type} {part : σ → τ} {replace : σ → τ → σ} {x : Action τ ε α} {state after : σ} {value : α} :
    x.onPart part replace state = (.ok value, after) ↔
      ∃ left, x (part state) = (.ok value, left) ∧ replace state left = after := by
  rcases hx : x (part state) with ⟨outcome, left⟩
  simp [onPart, hx]

theorem map_apply (f : α → β) (x : Action σ ε α) (state : σ) : (f <$> x) state = (f <$> (x state).1, (x state).2) := by
  show Action.bind x (fun value => Action.pure (f value)) state = _
  rw [Action.bind]
  rcases x state with ⟨_ | _ | _, state'⟩ <;> rfl

theorem mapErr_of_ok {translate : ε → ε'} {x : Action σ ε α} {state state' : σ} {value : α}
    (h : x state = (.ok value, state')) : x.mapErr translate state = (.ok value, state') := by
  rw [mapErr, h]
  rfl

theorem mapErr_of_err {translate : ε → ε'} {x : Action σ ε α} {state state' : σ} {error : ε}
    (h : x state = (.err error, state')) : x.mapErr translate state = (.err (translate error), state') := by
  rw [mapErr, h]
  rfl

theorem mapErr_eq_ok {translate : ε → ε'} {x : Action σ ε α} {state state' : σ} {value : α} :
    x.mapErr translate state = (.ok value, state') ↔ x state = (.ok value, state') := by
  rw [mapErr, Prod.mk.injEq, Outcome.mapErr_eq_ok]
  exact ⟨fun h => Prod.ext h.1 h.2, fun h => by rw [h]; exact ⟨rfl, rfl⟩⟩

theorem mapErr_mapErr (translate : ε → ε') (translate' : ε' → ε'') (x : Action σ ε α) :
    (x.mapErr translate).mapErr translate' = x.mapErr (translate' ∘ translate) := by
  funext state
  rcases h : x state with ⟨_ | _ | _, state'⟩ <;> simp [mapErr, h, Outcome.mapErr]

theorem mapErr_pure (translate : ε → ε') (value : α) :
    (pure value : Action σ ε α).mapErr translate = pure value := rfl

theorem mapErr_bind (translate : ε → ε') (x : Action σ ε α) (next : α → Action σ ε β) :
    (x >>= next).mapErr translate = x.mapErr translate >>= fun value => (next value).mapErr translate := by
  funext state
  rcases h : x state with ⟨value | error | _, state'⟩
  · rw [bind_of_ok (mapErr_of_ok h), mapErr, bind_of_ok h]
    rfl
  · rw [bind_of_err (mapErr_of_err h), mapErr, bind_of_err h]
    rfl
  · have hpanic : x.mapErr translate state = (.panic, state') := by
      rw [mapErr, h]
      rfl
    rw [bind_of_panic hpanic, mapErr, bind_of_panic h]
    rfl

instance : LawfulMonad (Action σ ε) :=
  LawfulMonad.mk' (Action σ ε)
    (fun x => by
      funext state
      show Action.bind x Action.pure state = x state
      rw [Action.bind]
      rcases x state with ⟨_ | _ | _, state'⟩ <;> rfl)
    (fun _ _ => rfl)
    (fun x next next' => by
      funext state
      show Action.bind (Action.bind x next) next' state = Action.bind x (fun value => Action.bind (next value) next') state
      simp only [Action.bind]
      rcases x state with ⟨_ | _ | _, state'⟩ <;> rfl)

def exec (x : Action σ ε α) (state : σ) : Outcome ε σ :=
  match x state with
  | (.ok _, state) => .ok state
  | (.err error, _) => .err error
  | (.panic, _) => .panic

theorem exec_of_ok {x : Action σ ε α} {state state' : σ} {value : α} (h : x state = (.ok value, state')) :
    x.exec state = .ok state' := by
  rw [exec, h]

/-- One computation after another leaves what the second makes of the first one's state. -/
theorem exec_bind_const (x : Action σ ε α) (y : Action σ ε β) (state : σ) :
    (x >>= fun _ => y).exec state = x.exec state >>= y.exec := by
  rcases h : x state with ⟨value | error | _, state'⟩
  · rw [exec, bind_of_ok h, exec_of_ok h]
    rfl
  · rw [exec, bind_of_err h, exec, h]
    rfl
  · rw [exec, bind_of_panic h, exec, h]
    rfl

/-- The same effect and the same value, or two errors. -/
def SameEffect (x y : Outcome ε α × σ) : Prop :=
  x.2 = y.2 ∧ ((∃ value, x.1 = .ok value ∧ y.1 = .ok value) ∨ (x.1.Rejected ∧ y.1.Rejected))

def quiet (x : Action σ ε α) : Action σ Unit α := x.mapErr fun _ => ()

theorem quiet_mapErr (translate : ε → ε') (x : Action σ ε α) : (x.mapErr translate).quiet = x.quiet :=
  mapErr_mapErr _ _ x

theorem quiet_bind (x : Action σ ε α) (next : α → Action σ ε β) :
    (x >>= next).quiet = x.quiet >>= fun value => (next value).quiet :=
  mapErr_bind _ x next

theorem eq_ok_of_quiet_eq {x : Action σ ε α} {y : Action σ ε' α} (h : x.quiet = y.quiet) {state state' : σ} {value : α} :
    x state = (.ok value, state') ↔ y state = (.ok value, state') := by
  have hx : x.quiet state = (.ok value, state') ↔ x state = (.ok value, state') := mapErr_eq_ok
  have hy : y.quiet state = (.ok value, state') ↔ y state = (.ok value, state') := mapErr_eq_ok
  rw [← hx, ← hy, h]

theorem ne_panic_of_quiet_eq {x : Action σ ε α} {y : Action σ ε' α} (h : x.quiet = y.quiet) {state : σ}
    (hy : (y state).1 ≠ .panic) : (x state).1 ≠ .panic := by
  intro hx
  have hstate : (x.quiet state).1 = (y.quiet state).1 := congrArg Prod.fst (congrFun h state)
  simp only [quiet, mapErr, hx] at hstate
  cases hcase : (y state).1 with
  | ok value =>
      rw [hcase] at hstate
      cases hstate
  | err error =>
      rw [hcase] at hstate
      cases hstate
  | panic => exact hy hcase

theorem sameEffect_of_quiet_eq {x y : Action σ ε α} (h : x.quiet = y.quiet) {state : σ} (hx : (x state).1 ≠ .panic) :
    SameEffect (x state) (y state) := by
  have hstate := congrFun h state
  simp only [quiet, mapErr, Prod.mk.injEq] at hstate
  obtain ⟨houtcome, hleft⟩ := hstate
  refine ⟨hleft, ?_⟩
  cases hcase : (x state).1 with
  | ok value =>
      rw [hcase] at houtcome
      exact Or.inl ⟨value, rfl, Outcome.mapErr_eq_ok.mp houtcome.symm⟩
  | err error =>
      rw [hcase] at houtcome
      cases hcase' : (y state).1 with
      | err error' => exact Or.inr ⟨⟨error, rfl⟩, ⟨error', rfl⟩⟩
      | ok value =>
          rw [hcase'] at houtcome
          cases houtcome
      | panic =>
          rw [hcase'] at houtcome
          cases houtcome
  | panic => exact absurd hcase hx

/-! ### Computations that report an error -/

theorem rejected_mapErr {translate : ε → ε'} {x : Action σ ε α} {state : σ} :
    (x.mapErr translate state).1.Rejected ↔ (x state).1.Rejected := Outcome.rejected_mapErr

theorem rejected_bind {x : Action σ ε α} {next : α → Action σ ε β} {state : σ} :
    ((x >>= next) state).1.Rejected ↔
      (x state).1.Rejected ∨ ∃ value between, x state = (.ok value, between) ∧ (next value between).1.Rejected := by
  rcases hx : x state with ⟨value | error | _, between⟩
  · simp [bind_of_ok hx, Outcome.not_rejected_ok]
  · simp [bind_of_err hx]
  · simp [bind_of_panic hx, Outcome.not_rejected_panic]

theorem rejected_of_quiet_eq {x : Action σ ε α} {y : Action σ ε' α} (h : x.quiet = y.quiet) {state : σ} :
    (x state).1.Rejected ↔ (y state).1.Rejected := by
  have hx : (x.quiet state).1.Rejected ↔ (x state).1.Rejected := rejected_mapErr
  have hy : (y.quiet state).1.Rejected ↔ (y state).1.Rejected := rejected_mapErr
  rw [← hx, ← hy, h]

theorem not_rejected_succeeds (x : Action σ ε α) (state : σ) :
    ¬ ((x.succeeds : Action σ ε' Bool) state).1.Rejected := by
  rcases hx : x state with ⟨value | error | _, left⟩ <;> simp [succeeds, hx, Outcome.Rejected]

/-! ### Computations that do not panic -/

def Safe (x : Action σ ε α) : Prop := ∀ state, (x state).1 ≠ .panic

theorem safe_pure (value : α) : Safe (pure value : Action σ ε α) := by
  intro state
  simp [pure_apply]

theorem safe_lift {outcome : Outcome ε α} (h : outcome ≠ .panic) : Safe (lift outcome : Action σ ε α) := fun _ => h

theorem Safe.mapErr {x : Action σ ε α} (h : Safe x) (translate : ε → ε') : Safe (x.mapErr translate) := by
  intro state
  have hstate := h state
  rcases hx : x state with ⟨value | error | _, left⟩ <;> simp [Action.mapErr, Outcome.mapErr, hx] at hstate ⊢

theorem Safe.bind {x : Action σ ε α} {next : α → Action σ ε β} (h : Safe x) (hnext : ∀ value, Safe (next value)) :
    Safe (x >>= next) := by
  intro state
  have hstate := h state
  rcases hx : x state with ⟨value | error | _, left⟩
  · rw [bind_of_ok hx]
    exact hnext value left
  · simp [bind_of_err hx]
  · simp [hx] at hstate

/-! ### Parts of a state -/

section Through

variable {τ : Type} {part : σ → τ}

/-- A computation does with a part of its state what another does with that part alone. -/
def Through (part : σ → τ) (x : Action σ ε α) (y : Action τ ε α) : Prop :=
  ∀ state, (x state).1 = (y (part state)).1 ∧ part (x state).2 = (y (part state)).2

theorem Through.pure (value : α) : Through part (Pure.pure value : Action σ ε α) (Pure.pure value) :=
  fun _ => ⟨rfl, rfl⟩

theorem Through.lift (outcome : Outcome ε α) : Through part (Action.lift outcome) (Action.lift outcome) :=
  fun _ => ⟨rfl, rfl⟩

theorem Through.mapErr {x : Action σ ε α} {y : Action τ ε α} (h : Through part x y) (translate : ε → ε') :
    Through part (x.mapErr translate) (y.mapErr translate) := by
  intro state
  obtain ⟨houtcome, hleft⟩ := h state
  simp only [Action.mapErr, houtcome, hleft, and_self]

theorem Through.bind {x : Action σ ε α} {y : Action τ ε α} {next : α → Action σ ε β} {next' : α → Action τ ε β}
    (h : Through part x y) (hnext : ∀ value, Through part (next value) (next' value)) :
    Through part (x >>= next) (y >>= next') := by
  intro state
  obtain ⟨houtcome, hleft⟩ := h state
  rcases hx : x state with ⟨value | error | _, left⟩ <;> rcases hy : y (part state) with ⟨value' | error' | _, left'⟩ <;>
    simp only [hx, hy, Outcome.ok.injEq, Outcome.err.injEq, reduceCtorEq] at houtcome hleft
  · rw [bind_of_ok hx, bind_of_ok hy, ← houtcome, ← hleft]
    exact hnext value left
  · rw [bind_of_err hx, bind_of_err hy, houtcome]
    exact ⟨rfl, hleft⟩
  · rw [bind_of_panic hx, bind_of_panic hy]
    exact ⟨rfl, hleft⟩

/-- What only touches the rest of the state is not seen. -/
theorem Through.skip {x : Action σ ε Unit} {next : Action σ ε β} {y : Action τ ε β}
    (hx : ∀ state, (x state).1 = .ok () ∧ part (x state).2 = part state) (h : Through part next y) :
    Through part (x >>= fun _ => next) y := by
  intro state
  obtain ⟨hok, hleft⟩ := hx state
  rw [bind_of_ok (Prod.ext hok rfl), ← hleft]
  exact h _

end Through

end Action

/-! ### Reading -/

/-- A stream: the bytes not read yet, and the error a read past them ends in. -/
structure ByteStream where
  unread : Bytes
  failure : String
  deriving DecidableEq, Repr

/-- `stream.read_exact(&mut buf)` for a buffer of this many bytes. -/
def readExact (count : Nat) : Action ByteStream String Bytes := fun stream =>
  if count ≤ stream.unread.length then
    (.ok (stream.unread.take count), { stream with unread := stream.unread.drop count })
  else (.err stream.failure, { stream with unread := [] })

theorem readExact_append {bytes rest : Bytes} {count : Nat} {failure : String} (hcount : bytes.length = count) :
    readExact count ⟨bytes ++ rest, failure⟩ = (.ok bytes, ⟨rest, failure⟩) := by
  subst hcount
  have hle : bytes.length ≤ (bytes ++ rest).length := by
    rw [List.length_append]
    omega
  rw [readExact, if_pos hle, List.take_left, List.drop_left]

theorem readExact_of_short {count : Nat} {stream : ByteStream} (h : stream.unread.length < count) :
    readExact count stream = (.err stream.failure, { stream with unread := [] }) :=
  if_neg (Nat.not_le.mpr h)

/-- Reading two pieces one after the other reads both at once. -/
theorem readExact_add (first second : Nat) :
    readExact (first + second) = do
      let bytes ← readExact first
      let more ← readExact second
      return bytes ++ more := by
  funext stream
  obtain ⟨unread, failure⟩ := stream
  by_cases hfirst : first ≤ unread.length
  · have hread : readExact first ⟨unread, failure⟩ = (.ok (unread.take first), ⟨unread.drop first, failure⟩) :=
      if_pos hfirst
    rw [Action.bind_of_ok hread]
    by_cases hsecond : first + second ≤ unread.length
    · have hmore : readExact second ⟨unread.drop first, failure⟩ =
          (.ok ((unread.drop first).take second), ⟨(unread.drop first).drop second, failure⟩) :=
        if_pos (by rw [List.length_drop]; omega)
      rw [Action.bind_of_ok hmore, Action.pure_apply, readExact, if_pos hsecond, List.take_add, List.drop_drop]
    · have hmore : (unread.drop first).length < second := by
        rw [List.length_drop]
        omega
      rw [Action.bind_of_err (readExact_of_short hmore), readExact_of_short (Nat.not_le.mp hsecond)]
  · have hshort : unread.length < first := Nat.not_le.mp hfirst
    have hshorter : unread.length < first + second := by omega
    rw [Action.bind_of_err (readExact_of_short hshort), readExact_of_short hshorter]

theorem readExact_zero : readExact 0 = pure [] := rfl

/-! ### Writing -/

/-- The other end of a stream: the bytes it took, how many more it takes before it fails, with which
error, and what a flush returns. -/
structure Sink where
  written : Bytes
  room : Nat
  failure : String
  flushed : Outcome String Unit

/-- `stream.write_all(&bytes)`. -/
def writeAll (bytes : Bytes) : Action Sink String Unit := fun sink =>
  if bytes.length ≤ sink.room then
    (.ok (), { sink with written := sink.written ++ bytes, room := sink.room - bytes.length })
  else (.err sink.failure, { sink with written := sink.written ++ bytes.take sink.room, room := 0 })

/-- `stream.flush()`. -/
def flush : Action Sink String Unit := fun sink => (sink.flushed, sink)

theorem writeAll_nil : writeAll [] = pure () := by
  funext sink
  have hfits : ([] : Bytes).length ≤ sink.room := Nat.zero_le _
  rw [writeAll, if_pos hfits, List.append_nil]
  rfl

/-- Writing two pieces one after the other writes both at once. -/
theorem writeAll_append (first second : Bytes) : writeAll (first ++ second) = writeAll first >>= fun _ => writeAll second := by
  funext sink
  by_cases hfirst : first.length ≤ sink.room
  · have hwrite : writeAll first sink =
        (.ok (), { sink with written := sink.written ++ first, room := sink.room - first.length }) := if_pos hfirst
    rw [Action.bind_of_ok hwrite, writeAll, writeAll, List.length_append]
    by_cases hsecond : first.length + second.length ≤ sink.room
    · have hfits : second.length ≤ sink.room - first.length := by omega
      rw [if_pos hsecond, if_pos hfits, List.append_assoc, Nat.sub_add_eq]
    · have hfull : ¬ second.length ≤ sink.room - first.length := by omega
      rw [if_neg hsecond, if_neg hfull, List.append_assoc, List.take_append, List.take_of_length_le hfirst]
  · have hwrite : writeAll first sink =
        (.err sink.failure, { sink with written := sink.written ++ first.take sink.room, room := 0 }) := if_neg hfirst
    have hfull : ¬ (first ++ second).length ≤ sink.room := by
      rw [List.length_append]
      omega
    rw [Action.bind_of_err hwrite, writeAll, if_neg hfull, List.take_append_of_le_length (by omega)]

/-- A loop that writes pieces writes them all, whatever it makes of an error. -/
theorem quiet_forM_writeAll {ε : Type} (translate : String → ε) (pieces : List Bytes) :
    Action.quiet (forM pieces fun piece => (writeAll piece).mapErr translate) = (writeAll pieces.flatten).quiet := by
  induction pieces with
  | nil => rw [List.flatten_nil, writeAll_nil]; rfl
  | cons piece pieces ih =>
      rw [List.forM_cons, List.flatten_cons, writeAll_append, Action.quiet_bind, Action.quiet_bind, Action.quiet_mapErr, ih]

/-! ### Chunks -/

variable {α : Type}

def chunksLoop (size : Nat) : (fuel : Nat) → List α → List (List α)
  | _, [] => []
  | 0, _ :: _ => []
  | fuel + 1, items => items.take size :: chunksLoop size fuel (items.drop size)

/-- `items.chunks(size)`: pieces of this size, the last one perhaps shorter. -/
def chunks (size : Nat) (items : List α) : List (List α) := chunksLoop size items.length items

theorem flatten_chunksLoop {size : Nat} (hsize : 0 < size) {fuel : Nat} {items : List α} (hfuel : items.length ≤ fuel) :
    (chunksLoop size fuel items).flatten = items := by
  induction fuel generalizing items with
  | zero =>
      rw [List.eq_nil_of_length_eq_zero (Nat.le_zero.mp hfuel)]
      rfl
  | succ fuel ih =>
      cases items with
      | nil => rfl
      | cons item rest =>
          have hrest : ((item :: rest).drop size).length ≤ fuel := by
            rw [List.length_drop]
            omega
          rw [chunksLoop, List.flatten_cons, ih hrest, List.take_append_drop]
          exact List.cons_ne_nil item rest

theorem flatten_chunks {size : Nat} (hsize : 0 < size) (items : List α) : (chunks size items).flatten = items :=
  flatten_chunksLoop hsize (Nat.le_refl _)

end Rust
