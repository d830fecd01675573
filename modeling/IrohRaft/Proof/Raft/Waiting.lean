import IrohRaft.Library.Oneshot
import IrohRaft.Raft.Ready

/-!
# Handlers that answer what waits

A node keeps the senders of its proposals until they are answered. What a handler preserves that only answers them is
said once for every node: that no sender is used twice, that a free id stays free, and that a sender waits until it is
used.
-/

namespace IrohRaft

open Rust Oneshot

/-- Where a node keeps the senders that wait, and the answers it has given. -/
structure Waiting (σ ρ : Type) where
  pending : σ → HashMap Bytes Nat
  answers : σ → List (Nat × ρ)

namespace Waiting

variable {σ τ ρ α : Type} (waiting : Waiting σ ρ)

/-- What depends on the senders that wait and on the answers, and is kept by an answer to one of them. -/
structure Answering (holds : Observed σ → Prop) : Prop where
  frame : ∀ seen seen' : Observed σ, waiting.pending seen'.node = waiting.pending seen.node →
    waiting.answers seen'.node = waiting.answers seen.node → holds seen → holds seen'
  answer : ∀ (seen seen' : Observed σ) (id : Bytes) (result : ρ),
    waiting.pending seen'.node = (waiting.pending seen.node).erase id →
    waiting.answers seen'.node = waiting.answers seen.node ++ taken (waiting.pending seen.node) id result →
    holds seen → holds seen'

def FreshIn (seen : Observed σ) (sender : Nat) : Prop := Fresh (waiting.pending seen.node) (waiting.answers seen.node) sender

/-- Each sender was used at most once, and none that waits was. -/
def AnsweredOnce (seen : Observed σ) : Prop := Once (waiting.pending seen.node) (waiting.answers seen.node)

/-- Between two inputs, where the sender of the next one is new. -/
def Receives (sender : Option Nat) (seen : Observed σ) : Prop :=
  waiting.AnsweredOnce seen ∧ ∀ responseTx ∈ sender, waiting.FreshIn seen responseTx

/-- However it ends. -/
abbrev Preserves (holds : Observed σ → Prop) (handler : Handler σ α) : Prop :=
  Action.Triple holds handler (fun _ => holds) holds

variable {waiting} {holds : Observed σ → Prop}

/-! ### What is preserved -/

theorem answering_once : waiting.Answering waiting.AnsweredOnce where
  frame seen seen' hpending hanswers hseen := by
    rw [AnsweredOnce, hpending, hanswers]
    exact hseen
  answer seen seen' id result hpending hanswers hseen := by
    rw [AnsweredOnce, hpending, hanswers]
    exact Once.answer hseen id result

/-- Nothing waits under the id. -/
theorem answering_free (id : Bytes) : waiting.Answering fun seen => (waiting.pending seen.node)[id]? = none where
  frame seen seen' hpending _ hseen := by rwa [hpending]
  answer seen seen' other result hpending _ hseen := by simp only [hpending, HashMap.getElem?_erase_if, hseen, ite_self]

theorem answering_awaits (id : Bytes) (sender : Nat) :
    waiting.Answering fun seen => Awaits id sender (waiting.pending seen.node) (waiting.answers seen.node) where
  frame seen seen' hpending hanswers hseen := by
    rw [hpending, hanswers]
    exact hseen
  answer seen seen' other result hpending hanswers hseen := by
    rw [hpending, hanswers]
    exact Awaits.answer hseen other result

/-! ### The rules -/

theorem preserves_lift (outcome : Outcome RaftError α) : Preserves holds (Action.lift outcome) :=
  Action.Triple.lift (fun _ _ _ => id) fun _ _ => id

namespace Answering

variable (h : waiting.Answering holds)

include h

theorem modify {update : Observed σ → Observed σ}
    (hpending : ∀ seen, waiting.pending (update seen).node = waiting.pending seen.node)
    (hanswers : ∀ seen, waiting.answers (update seen).node = waiting.answers seen.node) :
    Preserves holds (Action.modify update) :=
  Action.Triple.modify fun seen hseen => h.frame seen (update seen) (hpending seen) (hanswers seen) hseen

theorem record (effect : Effect) : Preserves holds (Handler.record effect) :=
  h.modify (fun _ => by rfl) fun _ => by rfl

theorem store {part : σ → τ} {replace : σ → τ → σ}
    (hpending : ∀ node value, waiting.pending (replace node value) = waiting.pending node)
    (hanswers : ∀ node value, waiting.answers (replace node value) = waiting.answers node) (session : Session τ RaftError α) :
    Preserves holds (Handler.store part replace session) := by
  refine Action.Triple.of_final fun seen hseen => ?_
  rw [Handler.store]
  split
  · exact h.frame seen _ (hpending seen.node _) (hanswers seen.node _) hseen
  · exact h.frame seen _ (hpending seen.node _) (hanswers seen.node _) hseen

theorem handling {body : Handler σ α} (ready : Ready) (light : LightReady) (faults : List (Option (Nat × RaftError)))
    (hbody : Preserves holds body) : Preserves holds (Handler.handling ready light faults body) := by
  refine Action.Triple.of_final fun seen hseen => ?_
  have hstart := h.frame seen { seen with faults, effects := [] } (by rfl) (by rfl) hseen
  exact h.frame _ _ (by rfl) (by rfl) (hbody.final hstart)

end Answering

theorem modify_receives {update : Observed σ → Observed σ} {sender : Option Nat}
    (hpending : ∀ seen, waiting.pending (update seen).node = waiting.pending seen.node)
    (hanswers : ∀ seen, waiting.answers (update seen).node = waiting.answers seen.node) :
    Action.Triple (waiting.Receives sender) (Action.modify update : Handler σ Unit) (fun _ => waiting.Receives sender) waiting.AnsweredOnce := by
  apply Action.Triple.modify
  intro seen hseen
  simpa only [Receives, AnsweredOnce, FreshIn, hpending, hanswers] using hseen

/-- A sender that waits when the handler starts is used by its end exactly if its id is free. -/
theorem used_iff_free {handler : Handler σ α} (hready : ∀ holds, waiting.Answering holds → Preserves holds handler)
    {seen : Observed σ} (honce : waiting.AnsweredOnce seen) {id : Bytes} {sender : Nat}
    (hwaits : (waiting.pending seen.node)[id]? = some sender) :
    Used (waiting.answers (handler seen).2.node) sender ↔ (waiting.pending (handler seen).2.node)[id]? = none :=
  Awaits.used_iff ((hready _ (answering_awaits id sender)).final (.inl hwaits)) ((hready _ answering_once).final honce)

end Waiting

end IrohRaft
