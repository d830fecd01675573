import IrohRaft.Proof.Node.WriteAhead
import IrohRaft.Proof.Raft.Durability

/-!
# Votes across restarts

A node is started over and over on the same disk, and may stop anywhere in the handling of a Ready. As long as raft keeps to
the term and the vote it finds there, the votes that leave the node in all its lives are for one candidate in each term: a
vote is on the disk before it is sent, and what a stop leaves there continues what was there before.
-/

namespace IrohRaft.RaftManager

open Rust Redb RedbRaftStorage Register

/-- A vote that a message tells of. -/
structure Vote where
  term : UInt64
  candidate : UInt64
  deriving DecidableEq, Repr

/-- The hard state that a vote is cast in. -/
def Backs (hardState : HardState) (vote : Vote) : Prop :=
  hardState.term = vote.term ∧ hardState.vote = vote.candidate ∧ vote.candidate ≠ 0

instance (hardState : HardState) (vote : Vote) : Decidable (Backs hardState vote) := by
  unfold Backs
  infer_instance

theorem Backs.agrees {before after : HardState} {vote vote' : Vote} (h : Backs before vote) (h' : Backs after vote')
    (hcontinues : before.Continues after) (hterm : vote.term = vote'.term) : vote = vote' := by
  obtain ⟨hbefore, hvote, hne⟩ := h
  obtain ⟨hafter, hvote', -⟩ := h'
  have hsame : after.vote = before.vote := hcontinues.2 (by rw [hafter, hbefore, hterm]) (hvote ▸ hne)
  have hcandidate : vote.candidate = vote'.candidate := by rw [← hvote, ← hvote', hsame]
  cases vote
  cases vote'
  exact congr (congrArg Vote.mk hterm) hcandidate

/-! ### One life -/

/-- The hard states that a Ready may have the manager save. -/
def Round.hardStates (round : Round) : List HardState :=
  (if RaftSnapshotManager.isEmpty round.ready.snapshot then [] else [ofMetadata (getMetadata round.ready.snapshot)]) ++
    round.ready.hs.toList ++ round.light.commitIndex.toList.map fun commit => { round.hardState with commit }

theorem Round.mem_hardStates {round : Round} {effect : Effect} {hardState : HardState} (hasks : round.Asks effect)
    (hsaves : savedHardState effect = some hardState) : hardState ∈ round.hardStates := by
  rw [hardStates, List.append_assoc]
  cases effect with
  | installSnapshot snapshot =>
      obtain rfl : snapshot = round.ready.snapshot := hasks
      rw [savedHardState] at hsaves
      split at hsaves
      · simp at hsaves
      · next hempty =>
          rw [if_neg hempty, Option.some.inj hsaves]
          exact List.mem_append_left _ List.mem_cons_self
  | saveHardState saved =>
      obtain rfl := Option.some.inj hsaves
      apply List.mem_append_right
      obtain hready | ⟨commit, hcommit, rfl⟩ := hasks
      · exact List.mem_append_left _ (Option.mem_toList.mpr hready)
      · exact List.mem_append_right _ (List.mem_map.mpr ⟨commit, Option.mem_toList.mpr hcommit, rfl⟩)
  | append entries => simp [savedHardState] at hsaves
  | send message => simp [savedHardState] at hsaves
  | applyEntry entry => simp [savedHardState] at hsaves
  | applyConfChange entry => simp [savedHardState] at hsaves
  | advance => simp [savedHardState] at hsaves
  | advanceApplyTo index => simp [savedHardState] at hsaves

/-- A manager that is started on a database, and what it is given until it stops. -/
structure Life where
  manager : RaftManager
  inputs : List Input

variable (codec : ManagerCodec) (grants : Message → Option Vote)

namespace Life

variable (life : Life)

def history : List Handled := RaftManager.history codec life.manager life.inputs

/-- What it leaves on disk. -/
def database : Redb.Database := (Run.final (Execution.step codec) (Execution.start life.manager) life.inputs).observed.node.database

/-- The hard state that raft starts from. -/
def found : HardState := persisted codec.toRaftStateCodec life.manager.database

/-- The hard state that is saved after some of the effects. -/
def savedAfter (effects : List Effect) : HardState := (lastWrite savedHardState effects).getD (life.found codec)

end Life

def votesIn (effects : List Effect) : List Vote := (effects.filterMap Effect.sentMessage).filterMap grants

def Life.votes (life : Life) : List Vote := votesIn grants (effectsOf (life.history codec))

/-- What raft keeps to in a life: it does not go back behind the hard state that was saved last, also not with the one
it asks for when the life ends, and it casts a vote in the hard state of the Ready that brings it. -/
structure Life.Promises (life : Life) : Prop where
  saves : (life.found codec :: (effectsOf (life.history codec)).filterMap savedHardState).IsChain HardState.Continues
  asks : ∀ round, RoundOf life.inputs round → ∀ before effects, life.history codec = before ++ [⟨round.ready, round.light, effects⟩] →
    ∀ hardState ∈ round.hardStates, (life.savedAfter codec (effectsOf (life.history codec))).Continues hardState
  casts : Run.Follows (fun state handled => (lastWrite savedHardState handled.effects).getD state)
    (fun state handled => ∀ vote ∈ votesIn grants handled.effects, Backs (handled.ready.hs.getD state) vote)
    (life.found codec) (life.history codec)

variable {codec grants} {life : Life}

namespace Life

theorem savedAfter_continues (h : life.Promises codec grants) {before after : List Effect} (hbefore : before <+: after)
    (hafter : after <+: effectsOf (life.history codec)) :
    (life.savedAfter codec before).Continues (life.savedAfter codec after) :=
  related_of_prefix HardState.Continues.refl (fun _ _ _ hfirst hsecond => hfirst.trans hsecond) h.saves hbefore hafter

theorem final_casts (before : List Handled) :
    Run.final (fun state (handled : Handled) => (lastWrite savedHardState handled.effects).getD state) (life.found codec) before =
      life.savedAfter codec (effectsOf before) := by
  rw [savedAfter]
  generalize life.found codec = start
  induction before generalizing start with
  | nil => rfl
  | cons handled rest ih =>
      rw [Run.final_cons, ih, show effectsOf (handled :: rest) = handled.effects ++ effectsOf rest from List.flatMap_cons,
        lastWrite_append_getD]

/-- A vote is cast in a hard state that was saved before. -/
theorem Promises.backed (h : life.Promises codec grants) {vote : Vote} (hvote : vote ∈ life.votes codec grants) :
    ∃ done, done <+: effectsOf (life.history codec) ∧ Backs (life.savedAfter codec done) vote := by
  obtain ⟨message, hmessage, hgrants⟩ := List.mem_filterMap.mp hvote
  obtain ⟨effect, heffect, hsent⟩ := List.mem_filterMap.mp hmessage
  obtain ⟨handled, hhandled, hmem⟩ := List.mem_flatMap.mp heffect
  obtain ⟨before, after, hhistory⟩ := List.append_of_mem hhandled
  obtain ⟨pre, post, heffects⟩ := List.append_of_mem hmem
  have hshows : effect.Shows := by
    cases effect <;> simp [Effect.sentMessage, Effect.Shows] at hsent ⊢
  have hbacks : Backs (handled.ready.hs.getD (life.savedAfter codec (effectsOf before))) vote := by
    have hcasts := h.casts
    rw [hhistory, Run.follows_append, final_casts] at hcasts
    exact hcasts.2.1 vote (List.mem_filterMap.mpr ⟨message, List.mem_filterMap.mpr ⟨effect, hmem, hsent⟩, hgrants⟩)
  have htrace : effectsOf (life.history codec) = effectsOf before ++ (pre ++ effect :: post ++ effectsOf after) := by
    rw [hhistory, effectsOf, List.flatMap_append, List.flatMap_cons, heffects]
    rfl
  have hahead : WritesAhead handled := by
    have hmeets := runMeets_any codec life.manager life.inputs
    refine history_good ⟨?_, ?_⟩ hmeets handled hhandled
    · exact fun _ _ _ h => writesAhead_inline h
    · exact fun _ _ _ _ h => writesAhead_ready h
  cases hhs : handled.ready.hs with
  | none =>
      rw [hhs] at hbacks
      exact ⟨effectsOf before, ⟨_, htrace.symm⟩, hbacks⟩
  | some hs =>
      rw [hhs] at hbacks
      obtain ⟨first, last, hpre⟩ := List.append_of_mem ((hahead.wrote pre effect post heffects hshows).hardState hs hhs)
      refine ⟨effectsOf before ++ (first ++ [.saveHardState hs]), ⟨last ++ effect :: post ++ effectsOf after, ?_⟩, ?_⟩
      · rw [htrace, hpre]
        simp
      · rw [savedAfter, ← List.append_assoc, lastWrite_concat_getD]
        exact hbacks

/-- Wherever the life ends, the next one finds a hard state that continues the one saved last. -/
theorem Promises.left (hcodec : codec.PreservesHardStates) (h : life.Promises codec grants) :
    (life.savedAfter codec (effectsOf (life.history codec))).Continues (persisted codec.toRaftStateCodec (life.database codec)) := by
  have hstart : Handler.Between (fun trace manager => Stored codec life.manager.database (Applied life.inputs) [trace]
      manager.database) (Execution.start life.manager).observed := stored_start codec life.manager.database _
  have hhalted := ((stored_followed hcodec life.inputs life.manager.database).run hstart
    (fun input hinput round hround => ⟨input, hinput, hround⟩) fun _ _ _ _ _ _ h => h).2
  obtain hstored | ⟨round, hround, ⟨unfinished, hasks, hstored⟩, before, effects, hhistory⟩ := hhalted
  · obtain ⟨trace, htrace, hpersisted⟩ := hstored.hardState
    obtain rfl := List.mem_singleton.mp htrace
    rw [database, hpersisted]
    exact .refl _
  · obtain ⟨trace, htrace, hpersisted⟩ := hstored.hardState
    rw [database, hpersisted]
    obtain rfl | hunfinished := List.mem_cons.mp htrace
    · exact .refl _
    · obtain rfl := List.mem_singleton.mp hunfinished
      rw [lastWrite_concat_getD]
      cases hsaves : savedHardState unfinished with
      | none => exact .refl _
      | some hardState => exact h.asks round hround before effects hhistory hardState (round.mem_hardStates hasks hsaves)

end Life

/-! ### One life after the other -/

/-- The votes that were cast continue each other in the order of the lives. -/
theorem votes_backed (hcodec : codec.PreservesHardStates) {lives : List Life} {start : HardState}
    (hchain : lives.IsChain fun life next => next.manager.database = life.database codec)
    (hstart : ∀ life ∈ lives.head?, start = life.found codec)
    (hpromises : ∀ life ∈ lives, life.Promises codec grants) :
    (∀ vote ∈ lives.flatMap (Life.votes codec grants), ∃ basis, Backs basis vote ∧ start.Continues basis) ∧
      ∀ vote ∈ lives.flatMap (Life.votes codec grants), ∀ vote' ∈ lives.flatMap (Life.votes codec grants),
        vote.term = vote'.term → vote = vote' := by
  induction lives generalizing start with
  | nil => simp
  | cons life rest ih =>
      have hlife := hpromises life List.mem_cons_self
      obtain rfl := hstart life rfl
      obtain ⟨hnext, hrest⟩ := List.isChain_cons.mp hchain
      obtain ⟨hlater, honce⟩ := @ih (persisted codec.toRaftStateCodec (life.database codec)) hrest
        (fun next hmem => by rw [Life.found, hnext next hmem]) fun next hmem => hpromises next (List.mem_cons_of_mem _ hmem)
      have hleft := hlife.left hcodec
      -- what is voted later continues what this life has saved
      have hacross {vote vote' : Vote} (hvote : vote ∈ life.votes codec grants)
          (hvote' : vote' ∈ rest.flatMap (Life.votes codec grants)) (hterm : vote.term = vote'.term) : vote = vote' := by
        obtain ⟨done, hdone, hbacks⟩ := hlife.backed hvote
        obtain ⟨basis, hbasis, hcontinues⟩ := hlater vote' hvote'
        exact hbacks.agrees hbasis (((Life.savedAfter_continues hlife hdone (List.prefix_rfl)).trans hleft).trans hcontinues) hterm
      have hwithin {vote vote' : Vote} (hvote : vote ∈ life.votes codec grants) (hvote' : vote' ∈ life.votes codec grants)
          (hterm : vote.term = vote'.term) : vote = vote' := by
        obtain ⟨done, hdone, hbacks⟩ := hlife.backed hvote
        obtain ⟨done', hdone', hbacks'⟩ := hlife.backed hvote'
        obtain hfirst | hsecond := List.prefix_or_prefix_of_prefix hdone hdone'
        · exact hbacks.agrees hbacks' (Life.savedAfter_continues hlife hfirst hdone') hterm
        · exact (hbacks'.agrees hbacks (Life.savedAfter_continues hlife hsecond hdone) hterm.symm).symm
      refine ⟨fun vote hvote => ?_, fun vote hvote vote' hvote' hterm => ?_⟩
      · obtain hhere | hthere := List.mem_append.mp (List.flatMap_cons ▸ hvote)
        · obtain ⟨done, hdone, hbacks⟩ := hlife.backed hhere
          exact ⟨_, hbacks, Life.savedAfter_continues hlife (List.nil_prefix) hdone⟩
        · obtain ⟨basis, hbasis, hcontinues⟩ := hlater vote hthere
          refine ⟨basis, hbasis, ?_⟩
          exact ((Life.savedAfter_continues hlife (List.nil_prefix) (List.prefix_rfl)).trans hleft).trans hcontinues
      · obtain hhere | hthere := List.mem_append.mp (List.flatMap_cons ▸ hvote)
        · obtain hhere' | hthere' := List.mem_append.mp (List.flatMap_cons ▸ hvote')
          · exact hwithin hhere hhere' hterm
          · exact hacross hhere hthere' hterm
        · obtain hhere' | hthere' := List.mem_append.mp (List.flatMap_cons ▸ hvote')
          · exact (hacross hhere' hthere hterm.symm).symm
          · exact honce vote hthere vote' hthere' hterm

/-- The answer to a request for a vote that is granted. -/
def grantsVote (message : Message) : Option Vote := if message.msgType = 6 then some ⟨message.term, message.toId⟩ else none

/-- A vote for the second node in the first term. The process ends before a vote for the third node in the next term is saved. -/
def votesAndStops : Life where
  manager := freshManager 1
  inputs := [
    .tick (some { ready := { hs := some { term := 1, vote := 2 }, messages := [{ msgType := 6, toId := 2, fromId := 1, term := 1 }] } })
      false none,
    .tick (some { ready := { hs := some { term := 2, vote := 3 }, messages := [{ msgType := 6, toId := 3, fromId := 1, term := 2 }] },
                  faults := [some (0, .internal "")] })
      false none]

/-- The first vote is repeated, and the second node has that of the next term as well. -/
def votesAgain : Life where
  manager := { freshManager 1 with database := votesAndStops.database .ofStorage }
  inputs := [
    .tick (some { ready := { messages := [{ msgType := 6, toId := 2, fromId := 1, term := 1 }] } }) false none,
    .tick (some { ready := { hs := some { term := 2, vote := 2 }, messages := [{ msgType := 6, toId := 2, fromId := 1, term := 2 }] } })
      false none]

theorem promises_of_rounds {life : Life}
    (hsaves : (life.found codec :: (effectsOf (life.history codec)).filterMap savedHardState).IsChain HardState.Continues)
    (hasks : ∀ input ∈ life.inputs, ∀ round ∈ input.rounds, ∀ hardState ∈ round.hardStates,
      (life.savedAfter codec (effectsOf (life.history codec))).Continues hardState)
    (hcasts : Run.Follows (fun state handled => (lastWrite savedHardState handled.effects).getD state)
      (fun state handled => ∀ vote ∈ votesIn grants handled.effects, Backs (handled.ready.hs.getD state) vote)
      (life.found codec) (life.history codec)) : life.Promises codec grants :=
  ⟨hsaves, fun round ⟨input, hinput, hround⟩ _ _ _ => hasks input hinput round hround, hcasts⟩

end IrohRaft.RaftManager
