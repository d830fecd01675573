import IrohRaft.Transport.Connections

/-!
# Connections in use

The stamp of a connection says when it was opened: sending a message does not change it, on neither path. So a
connection that stays in use for more than five minutes is found stale, and what counts is only when it was opened.
-/

namespace IrohRaft

open Rust
open Std (ExtTreeMap LawfulEqOrd)

namespace Connections

/-! ### What happened -/

/-- A message was sent over a connection; or a health check, which is a task, read the clock at the connection it found
for a peer. -/
inductive Event where
  | sent (connection : ConnectionHandle) (now : Instant)
  | examined (task : Nat) (peerId : UInt64) (connection : ConnectionHandle) (reading : Instant)
  deriving DecidableEq

abbrev History := List Event

def History.record (before : System) (label : Label) (_after : System) (history : History) : History :=
  match label with
  | .spawn _ => history
  | .turn task input =>
      match before.tasks[task]?, input with
      | some (.sendImmediate conn), .sent true now => history ++ [.sent conn.connection now]
      | some (.sendBatch connection), .sent true now => history ++ [.sent connection now]
      | some .collect, .checked readings =>
          history ++ before.shared.connections.toList.map fun stored =>
            .examined task stored.1 stored.2.connection (readings stored.1)
      | _, _ => history

abbrev Watched := System × History

def watch : Watched → Label → Watched := Tasks.recording program History.record

def watchedStart : Watched := (start, [])

/-- A message was sent over the connection during the last 300 seconds. -/
def UsedAt (history : History) (connection : ConnectionHandle) (now : Instant) : Prop :=
  ∃ sent, .sent connection sent ∈ history ∧ sent.elapsed now < idleLimit

/-- A lookup that finds a connection in use does not go on to open another one, and a health check does not take one out
of the map. -/
def Spares (watched : Watched) : Label → Prop
  | .turn task (.proceed now) =>
      let after := (watch watched (.turn task (.proceed now))).1
      ∀ peerId conn, watched.1.shared.connections[peerId]? = some conn →
        (watched.1.tasks[task]? = some (.lookup peerId) ∧ after.tasks[task]? = some (.connect peerId)) ∨
          after.shared.connections[peerId]? = none → ¬ UsedAt watched.2 conn.connection now
  | _ => True

/-- What a lookup finds was opened less than 300 seconds ago, or is not in use; and when a health check comes to remove
connections, there is none in use for a peer whose connection was older than that when the check read the clock. -/
def YoungOrUnused (watched : Watched) : Label → Prop
  | .turn task (.proceed now) =>
      match watched.1.tasks[task]? with
      | some (.lookup peerId) =>
          ∀ conn, watched.1.shared.connections[peerId]? = some conn →
            conn.connection.opened.elapsed now < idleLimit ∨ ¬ UsedAt watched.2 conn.connection now
      | some (.remove _) =>
          (∀ point ∈ watched.1.tasks, point.holdsRead = false) →
            ∀ peerId connection reading, .examined task peerId connection reading ∈ watched.2 →
              connection.opened.elapsed reading > idleLimit →
                ∀ conn, watched.1.shared.connections[peerId]? = some conn → ¬ UsedAt watched.2 conn.connection now
      | _ => True
  | _ => True

/-! ### The map -/

theorem mem_toRemove {readings : UInt64 → Instant} {connections : HashMap UInt64 PeerConnection} {peerId : UInt64} :
    peerId ∈ toRemove readings connections ↔
      ∃ conn, connections[peerId]? = some conn ∧ conn.lastActivity.elapsed (readings peerId) > idleLimit := by
  rw [toRemove, ExtTreeMap.mem_keys, ExtTreeMap.mem_iff_isSome_getElem?, ExtTreeMap.getElem?_filter']
  cases connections[peerId]? <;> simp

theorem getElem?_removeAll (peers : List UInt64) (connections : HashMap UInt64 PeerConnection) (peerId : UInt64) :
    (removeAll peers connections)[peerId]? = if peerId ∈ peers then none else connections[peerId]? := by
  induction peers generalizing connections with
  | nil => simp [removeAll]
  | cons peer peers ih =>
      have hcons : removeAll (peer :: peers) connections = removeAll peers (connections.erase peer) := by
        simp [removeAll]
      rw [hcons, ih, ExtTreeMap.getElem?_erase]
      by_cases hpeer : peerId = peer
      · subst hpeer
        simp
      · have hne : ¬ compare peer peerId = .eq := fun heq => hpeer (LawfulEqOrd.eq_of_compare heq).symm
        simp [hpeer, hne]

/-! ### Moves -/

/-- The health check this task runs has looked at the connections. -/
def Point.Checked : Point → Prop
  | .remove _ | .done => True
  | _ => False

/-- The task holds neither a connection for the map nor a list of peers to remove. -/
def Point.Plain : Point → Prop
  | .store _ _ | .remove _ => False
  | _ => True

/-- What a turn does: it puts a connection into the map, removes some, opens one for the map, looks at all of them, or
leaves the map alone. -/
inductive Move (shared : Connections) (point : Point) (input : Input) : Connections → Point → Prop
  | stored (peerId : UInt64) (conn copy : PeerConnection) (hpoint : point = .store peerId conn) :
      Move shared point input { shared with connections := shared.connections.insert peerId conn } (.sendImmediate copy)
  | removed (peers : List UInt64) (hpoint : point = .remove peers) :
      Move shared point input { shared with connections := removeAll peers shared.connections } .done
  | opened (peerId : UInt64) (irohNodeId : Bytes) (now : Instant) (opened : Nat) (hpoint : point = .connect peerId) :
      Move shared point input { shared with opened }
        (.store peerId { nodeId := peerId, irohNodeId, connection := ⟨shared.opened, now⟩, lastActivity := now })
  | checked (readings : UInt64 → Instant) (hpoint : point = .collect) (hinput : input = .checked readings) :
      Move shared point input shared
        (if (toRemove readings shared.connections).isEmpty then .done else .remove (toRemove readings shared.connections))
  | other (opened : Nat) (point' : Point) (hplain : point'.Plain)
      (hchecks : ∀ readings, point = .collect → input ≠ .checked readings) (hchecked : point.Checked → point'.Checked) :
      Move shared point input { shared with opened } point'

variable {shared shared' : Connections} {tasks : List Point} {task : Nat} {point point' : Point} {input : Input}
  {watched : Watched} {label : Label}

/-- A turn that changes nothing but where the task waits. -/
theorem Move.waits (hplain : point'.Plain) (hunchecked : ¬ point.Checked) (hcollect : point ≠ .collect) :
    Move shared point input shared point' :=
  .other shared.opened point' hplain (fun _ hpoint => absurd hpoint hcollect) fun hchecked => absurd hchecked hunchecked

theorem move_of_proceed {now : Instant} (h : advance shared tasks point (.proceed now) = some (shared', point')) :
    Move shared point (.proceed now) shared' point' := by
  cases point with
  | lookup peerId =>
      simp only [advance] at h
      split at h
      · split at h <;> cases h <;> exact .waits trivial id (by simp)
      · cases h
        exact .waits trivial id (by simp)
  | store peerId conn =>
      simp only [advance] at h
      split at h
      · cases h
      · cases h
        exact .stored peerId conn _ rfl
  | batchLookup peerId =>
      simp only [advance] at h
      split at h <;> cases h <;> exact .waits trivial id (by simp)
  | remove peers =>
      simp only [advance] at h
      split at h
      · cases h
      · cases h
        exact .removed peers rfl
  | connect | sendImmediate | batchConnect | sendBatch | collect | done => cases h

theorem move_of_advance (h : advance shared tasks point input = some (shared', point')) :
    Move shared point input shared' point' := by
  cases input with
  | proceed now => exact move_of_proceed h
  | connected result now =>
      cases point with
      | connect peerId =>
          cases result with
          | ok irohNodeId =>
              cases h
              exact .opened peerId irohNodeId now _ rfl
          | err | panic =>
              cases h
              exact .waits trivial id (by simp)
      | batchConnect =>
          cases result with
          | ok irohNodeId =>
              cases h
              exact .other _ _ trivial (by simp) (fun hchecked => hchecked.elim)
          | err | panic =>
              cases h
              exact .waits trivial id (by simp)
      | lookup | store | sendImmediate | batchLookup | sendBatch | collect | remove | done => cases h
  | sent delivered now =>
      cases point with
      | sendImmediate conn =>
          cases h
          exact .waits trivial id (by simp)
      | sendBatch connection =>
          cases delivered <;> cases h <;> exact .waits trivial id (by simp)
      | lookup | connect | store | batchLookup | batchConnect | collect | remove | done => cases h
  | checked readings =>
      cases point with
      | collect =>
          simp only [advance] at h
          have hmove : Move shared .collect (.checked readings) shared _ := .checked readings rfl rfl
          split at h <;> cases h <;> simp_all
      | lookup | connect | store | sendImmediate | batchLookup | batchConnect | sendBatch | remove | done => cases h
  | cancel =>
      cases point with
      | done => cases h
      | lookup | connect | store | sendImmediate | batchLookup | batchConnect | sendBatch | collect | remove =>
          cases h
          exact .other _ _ trivial (by simp) (fun _ => trivial)

/-! ### The record -/

/-- Only a health check that looks at the connections is noted as having looked at one. -/
theorem examined_mem_record {before after : System} {history : History} {other : Nat} {peerId : UInt64}
    {connection : ConnectionHandle} {reading : Instant} :
    .examined other peerId connection reading ∈ History.record before label after history ↔
      .examined other peerId connection reading ∈ history ∨
      ∃ readings conn, label = .turn other (.checked readings) ∧ before.tasks[other]? = some .collect ∧
        before.shared.connections[peerId]? = some conn ∧ conn.connection = connection ∧ readings peerId = reading := by
  cases label with
  | spawn kind => simp [History.record]
  | turn task input =>
      simp only [History.record]
      split
      · simp
      · simp
      · next readings hpoint =>
          simp only [List.mem_append, List.mem_map, Prod.exists, ExtTreeMap.mem_toList_iff_getElem?_eq_some, Event.examined.injEq]
          refine or_congr Iff.rfl ⟨fun h => ?_, fun h => ?_⟩
          · obtain ⟨peer, conn, hconn, rfl, rfl, rfl, rfl⟩ := h
            exact ⟨readings, conn, rfl, hpoint, hconn, rfl, rfl⟩
          · obtain ⟨readings, conn, hlabel, _, hconn, rfl, rfl⟩ := h
            cases hlabel
            exact ⟨peerId, conn, hconn, rfl, rfl, rfl, rfl⟩
      · next hnot =>
          refine ⟨Or.inl, fun h => h.resolve_right fun hchecks => ?_⟩
          obtain ⟨readings, conn, hlabel, hpoint, _⟩ := hchecks
          cases hlabel
          exact hnot readings hpoint rfl

/-- The stamp is when the connection was opened. -/
def Stamped (conn : PeerConnection) : Prop := conn.lastActivity = conn.connection.opened

/-- The check of this task found the connection of the peer too old. -/
def FoundOld (history : History) (task : Nat) (peerId : UInt64) : Prop :=
  ∃ connection reading, .examined task peerId connection reading ∈ history ∧ connection.opened.elapsed reading > idleLimit

/-- Every stamp is when the connection was opened, and what a health check is to remove is what it found too old. -/
structure Recorded (watched : Watched) : Prop where
  stored : ∀ (peerId : UInt64) conn, watched.1.shared.connections[peerId]? = some conn → Stamped conn
  pending : ∀ peerId conn, .store peerId conn ∈ watched.1.tasks → Stamped conn
  removing : ∀ task peers, watched.1.tasks[task]? = some (.remove peers) → ∀ peerId, peerId ∈ peers ↔ FoundOld watched.2 task peerId
  examined : ∀ task peerId connection reading, .examined task peerId connection reading ∈ watched.2 →
    ∃ point, watched.1.tasks[task]? = some point ∧ point.Checked

theorem recorded_start : Recorded watchedStart :=
  ⟨by simp [watchedStart, start], by simp [watchedStart, start], by simp [watchedStart, start], by simp [watchedStart]⟩

/-- Events of other kinds and of other checks change nothing for a check. -/
theorem foundOld_record_iff {before : System} (after : System) {history : History} {other : Nat} {peerId : UInt64}
    (h : ∀ readings, label = .turn other (.checked readings) → before.tasks[other]? ≠ some .collect) :
    FoundOld (History.record before label after history) other peerId ↔ FoundOld history other peerId := by
  have hnot : ∀ connection reading, .examined other peerId connection reading ∈ History.record before label after history ↔
      .examined other peerId connection reading ∈ history := by
    intro connection reading
    rw [examined_mem_record]
    refine ⟨fun hmem => hmem.resolve_right fun hchecks => ?_, Or.inl⟩
    obtain ⟨readings, conn, hlabel, hpoint, _⟩ := hchecks
    exact h readings hlabel hpoint
  simp only [FoundOld, hnot]

/-- A turn keeps the stamps in the map. -/
theorem Move.stored_stamped (h : Move shared point input shared' point')
    (hpending : ∀ peerId conn, point = .store peerId conn → Stamped conn)
    (hstored : ∀ (peerId : UInt64) conn, shared.connections[peerId]? = some conn → Stamped conn) {peerId : UInt64}
    {conn : PeerConnection} (hconn : shared'.connections[peerId]? = some conn) : Stamped conn := by
  cases h with
  | stored peer new copy hpoint =>
      by_cases hpeer : peer = peerId
      · subst hpeer
        rw [ExtTreeMap.getElem?_insert_self] at hconn
        obtain rfl := Option.some.inj hconn
        exact hpending _ _ hpoint
      · rw [HashMap.getElem?_insert_of_ne hpeer] at hconn
        exact hstored peerId conn hconn
  | removed peers hpoint =>
      simp only [getElem?_removeAll] at hconn
      split at hconn
      · cases hconn
      · exact hstored peerId conn hconn
  | opened | checked | other => exact hstored peerId conn hconn

theorem Move.pending_stamped (h : Move shared point input shared' point') {peerId : UInt64} {conn : PeerConnection}
    (hpoint' : point' = .store peerId conn) : Stamped conn := by
  cases h with
  | stored | removed => cases hpoint'
  | opened =>
      cases hpoint'
      rfl
  | checked =>
      split at hpoint' <;> cases hpoint'
  | other opened after hplain =>
      subst hpoint'
      exact hplain.elim

theorem Move.checked_of_checked (h : Move shared point input shared' point') (hchecked : point.Checked) : point'.Checked := by
  cases h with
  | removed => trivial
  | stored _ _ _ hpoint | opened _ _ _ _ hpoint | checked _ hpoint =>
      subst hpoint
      exact hchecked.elim
  | other _ _ _ _ hkept => exact hkept hchecked

/-- Only a check that has just looked at the connections comes to remove some. -/
theorem Move.of_remove (h : Move shared point input shared' point') {peers : List UInt64} (hpoint' : point' = .remove peers) :
    ∃ readings, point = .collect ∧ input = .checked readings ∧ peers = toRemove readings shared.connections := by
  cases h with
  | stored | removed | opened => cases hpoint'
  | checked readings hpoint hinput =>
      split at hpoint'
      · cases hpoint'
      · cases hpoint'
        exact ⟨readings, hpoint, hinput, rfl⟩
  | other opened after hplain =>
      subst hpoint'
      exact hplain.elim

theorem Move.checked_of_checks (h : Move shared .collect (.checked readings) shared' point') : point'.Checked := by
  cases h with
  | stored _ _ _ hpoint | removed _ hpoint | opened _ _ _ _ hpoint => cases hpoint
  | checked => split <;> trivial
  | other _ _ _ hchecks => exact absurd rfl (hchecks readings rfl)

/-- What a check is to remove is what it finds too old: the stamps say how old the connections are. -/
theorem Recorded.mem_toRemove_iff (h : Recorded watched) (hpoint : watched.1.tasks[task]? = some .collect)
    (readings : UInt64 → Instant) (after : System) (peerId : UInt64) :
    peerId ∈ toRemove readings watched.1.shared.connections ↔
      FoundOld (History.record watched.1 (.turn task (.checked readings)) after watched.2) task peerId := by
  rw [mem_toRemove]
  apply Iff.intro
  · intro hold
    obtain ⟨conn, hconn, helapsed⟩ := hold
    refine ⟨conn.connection, readings peerId, examined_mem_record.mpr (Or.inr ⟨readings, conn, rfl, hpoint, hconn, rfl, rfl⟩), ?_⟩
    rw [← h.stored peerId conn hconn]
    exact helapsed
  · intro hfound
    obtain ⟨connection, reading, hexamined, helapsed⟩ := hfound
    rcases examined_mem_record.mp hexamined with hbefore | ⟨readings', conn, hlabel, _, hconn, rfl, rfl⟩
    · obtain ⟨point, hthere, hchecked⟩ := h.examined task peerId connection reading hbefore
      obtain rfl := Option.some.inj (hpoint.symm.trans hthere)
      exact hchecked.elim
    · cases hlabel
      refine ⟨conn, hconn, ?_⟩
      rw [h.stored peerId conn hconn]
      exact helapsed

theorem Recorded.move (h : Recorded watched) (hpoint : watched.1.tasks[task]? = some point)
    (hmove : Move watched.1.shared point input shared' point') (after : System) :
    Recorded (⟨shared', watched.1.tasks.set task point'⟩, History.record watched.1 (.turn task input) after watched.2) where
  stored peerId conn hconn :=
    hmove.stored_stamped (fun peer new heq => h.pending peer new (heq ▸ List.mem_of_getElem? hpoint)) h.stored hconn
  pending peerId conn hmem := by
    rcases List.mem_or_eq_of_mem_set hmem with hbefore | hself
    · exact h.pending peerId conn hbefore
    · exact hmove.pending_stamped hself.symm
  removing other peers hother peerId := by
    rcases Tasks.getElem?_set_cases hother with ⟨rfl, hself⟩ | ⟨hne, hbefore⟩
    · obtain ⟨readings, rfl, rfl, rfl⟩ := hmove.of_remove hself.symm
      exact h.mem_toRemove_iff hpoint readings after peerId
    · rw [h.removing other peers hbefore]
      refine Iff.symm (@foundOld_record_iff (.turn task input) watched.1 after watched.2 other peerId fun readings hlabel => ?_)
      cases hlabel
      exact absurd rfl hne
  examined other peerId connection reading hmem := by
    dsimp only at hmem
    rcases examined_mem_record.mp hmem with hbefore | ⟨readings, conn, hlabel, hcollect, _⟩
    · obtain ⟨there, hthere, hchecked⟩ := h.examined other peerId connection reading hbefore
      by_cases hself : other = task
      · subst hself
        obtain rfl := Option.some.inj (hpoint.symm.trans hthere)
        exact ⟨point', Tasks.getElem?_set_self hpoint, hmove.checked_of_checked hchecked⟩
      · exact ⟨there, by rw [List.getElem?_set_ne (Ne.symm hself), hthere], hchecked⟩
    · cases hlabel
      obtain rfl := Option.some.inj (hpoint.symm.trans hcollect)
      exact ⟨point', Tasks.getElem?_set_self hpoint, hmove.checked_of_checks⟩

/-- A turn that is lost is not a health check that looks at the connections. -/
theorem Recorded.lost (h : Recorded watched) (after : System)
    (hlost : ∀ task readings, label = .turn task (.checked readings) → watched.1.tasks[task]? ≠ some .collect) :
    Recorded (watched.1, History.record watched.1 label after watched.2) where
  stored := h.stored
  pending := h.pending
  removing other peers hother peerId := by
    rw [h.removing other peers hother]
    exact (foundOld_record_iff after (hlost other)).symm
  examined other peerId connection reading hmem := by
    dsimp only at hmem
    rcases examined_mem_record.mp hmem with hbefore | ⟨readings, conn, hlabel, hcollect, _⟩
    · exact h.examined other peerId connection reading hbefore
    · exact absurd hcollect (hlost other readings hlabel)

theorem advance_checked_isSome (shared : Connections) (tasks : List Point) (readings : UInt64 → Instant) :
    (advance shared tasks .collect (.checked readings)).isSome := by
  simp only [advance]
  split <;> simp

theorem Recorded.step (h : Recorded watched) (label : Label) : Recorded (watch watched label) := by
  cases label with
  | spawn kind =>
      refine ⟨h.stored, fun peerId conn hmem => ?_, fun task peers hremove peerId => ?_, fun task peerId connection reading hmem => ?_⟩
      · rcases List.mem_append.mp hmem with hbefore | hentry
        · exact h.pending peerId conn hbefore
        · cases kind <;> simp [program, Kind.entry] at hentry
      · rcases Tasks.getElem?_append_cases hremove with hentry | hbefore
        · cases kind <;> simp [program, Kind.entry] at hentry
        · exact h.removing task peers hbefore peerId
      · obtain ⟨point, hpoint, hchecked⟩ := h.examined task peerId connection reading hmem
        exact ⟨point, Tasks.getElem?_append_of_some hpoint, hchecked⟩
  | turn task input =>
      cases hpoint : watched.1.tasks[task]? with
      | none =>
          rw [watch, Tasks.recording, Tasks.step_turn_of_absent program input hpoint]
          refine h.lost _ fun other readings hlabel => ?_
          cases hlabel
          simp [hpoint]
      | some point =>
          cases hadvance : program.advance watched.1.shared watched.1.tasks point input with
          | none =>
              rw [watch, Tasks.recording, Tasks.step_turn_of_lost program input hpoint hadvance]
              refine h.lost _ fun other readings hlabel hcollect => ?_
              cases hlabel
              obtain rfl := Option.some.inj (hpoint.symm.trans hcollect)
              have hsome := advance_checked_isSome watched.1.shared watched.1.tasks readings
              simp only [program] at hadvance
              simp [hadvance] at hsome
          | some moved =>
              rw [watch, Tasks.recording, Tasks.step_turn_of_move program input hpoint hadvance]
              exact h.move hpoint (move_of_advance hadvance) _

/-! ### Every step -/

theorem watch_fst (watched : Watched) (label : Label) : (watch watched label).1 = Tasks.step program watched.1 label := by
  simp [watch, Tasks.recording]

/-- Only the second turn of a health check takes connections out of the map. -/
theorem getElem?_step_ne_none (hremoves : ∀ peers, watched.1.tasks[task]? ≠ some (.remove peers)) {peerId : UInt64}
    {conn : PeerConnection} (hconn : watched.1.shared.connections[peerId]? = some conn) (input : Input) :
    (watch watched (.turn task input)).1.shared.connections[peerId]? ≠ none := by
  rw [watch_fst]
  obtain hsame | ⟨point, shared', point', hpoint, hadvance, hstep⟩ := Tasks.step_turn_cases program watched.1 task input
  · simp [hsame, hconn]
  · rw [hstep]
    cases move_of_advance hadvance with
    | removed peers hremove =>
        subst hremove
        exact absurd hpoint (hremoves peers)
    | stored peer new copy _ =>
        by_cases hpeer : peer = peerId
        · simp [hpeer]
        · simp only [HashMap.getElem?_insert_of_ne hpeer, hconn]
          simp
    | opened | checked | other => simp [hconn]

/-- A lookup opens another connection where it finds none that was opened less than 300 seconds ago. -/
theorem getElem?_step_lookup (h : Recorded watched) {peerId : UInt64} {conn : PeerConnection} {now : Instant}
    (hpoint : watched.1.tasks[task]? = some (.lookup peerId)) (hconn : watched.1.shared.connections[peerId]? = some conn) :
    (watch watched (.turn task (.proceed now))).1.tasks[task]? = some (.connect peerId) ↔
      ¬ conn.connection.opened.elapsed now < idleLimit := by
  have hadvance : program.advance watched.1.shared watched.1.tasks (.lookup peerId) (.proceed now) =
      if conn.connection.opened.elapsed now < idleLimit then some (watched.1.shared, .sendImmediate conn)
      else some (watched.1.shared, .connect peerId) := by
    have hstamp : conn.lastActivity = conn.connection.opened := h.stored peerId conn hconn
    simp [program, advance, hconn, hstamp]
  rw [watch_fst]
  by_cases hyoung : conn.connection.opened.elapsed now < idleLimit
  · rw [if_pos hyoung] at hadvance
    rw [Tasks.step_turn_of_move program _ hpoint hadvance, Tasks.getElem?_set_self hpoint]
    simp [hyoung]
  · rw [if_neg hyoung] at hadvance
    rw [Tasks.step_turn_of_move program _ hpoint hadvance, Tasks.getElem?_set_self hpoint]
    simp [hyoung]

/-- A health check removes what it found too old, unless a round keeps it from writing. -/
theorem getElem?_step_remove (h : Recorded watched) {peers : List UInt64} {peerId : UInt64} {conn : PeerConnection} {now : Instant}
    (hpoint : watched.1.tasks[task]? = some (.remove peers)) (hconn : watched.1.shared.connections[peerId]? = some conn) :
    (watch watched (.turn task (.proceed now))).1.shared.connections[peerId]? = none ↔
      (∀ point ∈ watched.1.tasks, point.holdsRead = false) ∧ FoundOld watched.2 task peerId := by
  rw [watch_fst, ← h.removing task peers hpoint]
  by_cases hheld : watched.1.tasks.any Point.holdsRead = true
  · have hadvance : program.advance watched.1.shared watched.1.tasks (.remove peers) (.proceed now) = none := by
      simp only [program, advance, hheld, if_true]
    rw [Tasks.step_turn_of_lost program _ hpoint hadvance]
    have hnot : ¬ ∀ point ∈ watched.1.tasks, point.holdsRead = false := by simpa using hheld
    simp [hconn, hnot]
  · have hadvance : program.advance watched.1.shared watched.1.tasks (.remove peers) (.proceed now) =
        some ({ watched.1.shared with connections := removeAll peers watched.1.shared.connections }, .done) := by
      simp [program, advance, hheld]
    rw [Tasks.step_turn_of_move program _ hpoint hadvance]
    have hfree : ∀ point ∈ watched.1.tasks, point.holdsRead = false := by simpa using hheld
    simp only [getElem?_removeAll]
    by_cases hmem : peerId ∈ peers
    · simpa [hmem] using hfree
    · simp [hmem, hconn]

/-- Any other turn spares every connection. -/
theorem spares_of_other {now : Instant} (hlookup : ∀ peerId, watched.1.tasks[task]? ≠ some (.lookup peerId))
    (hremove : ∀ peers, watched.1.tasks[task]? ≠ some (.remove peers)) : Spares watched (.turn task (.proceed now)) := by
  intro peerId conn hconn hspared
  rcases hspared with ⟨hlooks, _⟩ | hremoved
  · exact absurd hlooks (hlookup peerId)
  · exact absurd hremoved (getElem?_step_ne_none hremove hconn _)

theorem spares_lookup_iff (h : Recorded watched) {peerId : UInt64} {now : Instant}
    (hpoint : watched.1.tasks[task]? = some (.lookup peerId)) :
    Spares watched (.turn task (.proceed now)) ↔
      ∀ conn, watched.1.shared.connections[peerId]? = some conn →
        conn.connection.opened.elapsed now < idleLimit ∨ ¬ UsedAt watched.2 conn.connection now := by
  apply Iff.intro
  · intro hspares conn hconn
    by_cases hyoung : conn.connection.opened.elapsed now < idleLimit
    · exact Or.inl hyoung
    · exact Or.inr (hspares peerId conn hconn (Or.inl ⟨hpoint, (getElem?_step_lookup h hpoint hconn).mpr hyoung⟩))
  · intro hunused peer conn hconn hspared
    rcases hspared with ⟨hlooks, hconnects⟩ | hremoved
    · have hpeer : Point.lookup peerId = .lookup peer := Option.some.inj (hpoint.symm.trans hlooks)
      cases hpeer
      exact (hunused conn hconn).resolve_left ((getElem?_step_lookup h hpoint hconn).mp hconnects)
    · exact absurd hremoved (getElem?_step_ne_none (fun peers => by simp [hpoint]) hconn _)

theorem spares_remove_iff (h : Recorded watched) {peers : List UInt64} {now : Instant}
    (hpoint : watched.1.tasks[task]? = some (.remove peers)) :
    Spares watched (.turn task (.proceed now)) ↔
      ((∀ point ∈ watched.1.tasks, point.holdsRead = false) →
        ∀ peerId, FoundOld watched.2 task peerId →
          ∀ conn, watched.1.shared.connections[peerId]? = some conn → ¬ UsedAt watched.2 conn.connection now) := by
  apply Iff.intro
  · intro hspares hfree peerId hfound conn hconn
    exact hspares peerId conn hconn (Or.inr ((getElem?_step_remove h hpoint hconn).mpr ⟨hfree, hfound⟩))
  · intro hunused peerId conn hconn hspared
    rcases hspared with ⟨hlooks, _⟩ | hremoved
    · simp [hpoint] at hlooks
    · obtain ⟨hfree, hfound⟩ := (getElem?_step_remove h hpoint hconn).mp hremoved
      exact hunused hfree peerId hfound conn hconn

theorem spares_iff (h : Recorded watched) (label : Label) : Spares watched label ↔ YoungOrUnused watched label := by
  cases label with
  | spawn kind => simp [Spares, YoungOrUnused]
  | turn task input =>
      cases input with
      | connected | sent | checked | cancel => simp [Spares, YoungOrUnused]
      | proceed now =>
          simp only [YoungOrUnused]
          split
          · next peerId hpoint => exact spares_lookup_iff h hpoint
          · next peers hpoint =>
              rw [spares_remove_iff h hpoint]
              refine forall_congr' fun _ => forall_congr' fun peerId => ?_
              apply Iff.intro
              · intro hunused connection reading hexamined hold
                exact hunused ⟨connection, reading, hexamined, hold⟩
              · intro hunused hfound
                obtain ⟨connection, reading, hexamined, hold⟩ := hfound
                exact hunused connection reading hexamined hold
          · next hlookup hremove => exact iff_of_true (spares_of_other hlookup hremove) trivial

/-- A health check that finds a connection too old comes to remove some, and looking changes nothing else. -/
theorem step_collect {readings : UInt64 → Instant} (hpoint : watched.1.tasks[task]? = some .collect) {peerId : UInt64}
    {conn : PeerConnection} (hconn : watched.1.shared.connections[peerId]? = some conn)
    (hold : conn.lastActivity.elapsed (readings peerId) > idleLimit) :
    Tasks.step program watched.1 (.turn task (.checked readings)) =
      ⟨watched.1.shared, watched.1.tasks.set task (.remove (toRemove readings watched.1.shared.connections))⟩ := by
  have hmem : peerId ∈ toRemove readings watched.1.shared.connections := mem_toRemove.mpr ⟨conn, hconn, hold⟩
  have hnonempty : toRemove readings watched.1.shared.connections ≠ [] := List.ne_nil_of_mem hmem
  have hadvance : program.advance watched.1.shared watched.1.tasks .collect (.checked readings) =
      some (watched.1.shared, .remove (toRemove readings watched.1.shared.connections)) := by
    simp [program, advance, hnonempty]
  exact Tasks.step_turn_of_move program _ hpoint hadvance

/-- So a health check that runs undisturbed takes every connection out of the map that is too old and in use. -/
theorem not_spares_checked (h : Recorded watched) {readings : UInt64 → Instant} {now : Instant}
    (hpoint : watched.1.tasks[task]? = some .collect) (hfree : ∀ point ∈ watched.1.tasks, point.holdsRead = false)
    {peerId : UInt64} {conn : PeerConnection} (hconn : watched.1.shared.connections[peerId]? = some conn)
    (hold : conn.connection.opened.elapsed (readings peerId) > idleLimit) (hused : UsedAt watched.2 conn.connection now) :
    ¬ Spares (watch watched (.turn task (.checked readings))) (.turn task (.proceed now)) := by
  intro hspares
  have hstamp : conn.lastActivity = conn.connection.opened := h.stored peerId conn hconn
  have hstep := step_collect hpoint hconn (hstamp ▸ hold)
  have hrecorded := h.step (.turn task (.checked readings))
  rw [← watch_fst] at hstep
  have hremove : (watch watched (.turn task (.checked readings))).1.tasks[task]? =
      some (.remove (toRemove readings watched.1.shared.connections)) := by
    rw [hstep, Tasks.getElem?_set_self hpoint]
  have hstored : (watch watched (.turn task (.checked readings))).1.shared.connections[peerId]? = some conn := by
    rw [hstep, hconn]
  have hfound : FoundOld (watch watched (.turn task (.checked readings))).2 task peerId :=
    (hrecorded.removing task _ hremove peerId).mp (mem_toRemove.mpr ⟨conn, hconn, hstamp ▸ hold⟩)
  refine (spares_remove_iff hrecorded hremove).mp hspares ?_ peerId hfound conn hstored ?_
  · intro point hmem
    rw [hstep] at hmem
    rcases List.mem_or_eq_of_mem_set hmem with hbefore | rfl
    · exact hfree point hbefore
    · simp [Point.holdsRead]
  · obtain ⟨sent, hsent, helapsed⟩ := hused
    refine ⟨sent, ?_, helapsed⟩
    simp [watch, Tasks.recording, History.record, hpoint, hsent]

/-! ### Runs -/

theorem recorded_run (labels : List Label) : Recorded (Run.final watch watchedStart labels) :=
  Run.final_invariant Recorded (fun label _ _ hrecorded => hrecorded.step label) recorded_start

/-- **Connections in use are spared** in a run exactly if whatever a lookup finds was opened less than 300 seconds ago or is
not in use, and so is whatever there is for a peer when a health check removes what it found to be older than that. -/
theorem connections_spared_iff (labels : List Label) :
    Run.Follows watch Spares watchedStart labels ↔ Run.Follows watch YoungOrUnused watchedStart labels :=
  Run.follows_congr Recorded (fun _ label hrecorded _ => hrecorded.step label) (fun _ label hrecorded => spares_iff hrecorded label)
    recorded_start

/-- A message to node 2 opens a connection, and another one is sent over it 200 seconds later. -/
def steadyUse : List Label :=
  [.spawn (.trySendImmediate 2), .turn 0 (.proceed 0), .turn 0 (.connected (.ok []) 0), .turn 0 (.proceed 0),
    .turn 0 (.sent true 0), .spawn (.trySendImmediate 2), .turn 1 (.proceed (200 * nanosPerSecond)),
    .turn 1 (.sent true (200 * nanosPerSecond))]

/-- The connection to node 2. -/
def steadyConnection : PeerConnection := { nodeId := 2, irohNodeId := [], connection := ⟨0, 0⟩, lastActivity := 0 }

/-- Another 100 seconds later a lookup finds the connection stale, and a health check removes it. -/
theorem not_connections_spared :
    ¬ Run.Follows watch Spares watchedStart
      (steadyUse ++ [.spawn (.trySendImmediate 2)] ++ [.turn 2 (.proceed (300 * nanosPerSecond))]) ∧
    ¬ Run.Follows watch Spares watchedStart
      (steadyUse ++ [.spawn .checkConnectionHealth] ++ [.turn 2 (.checked fun _ => 301 * nanosPerSecond)] ++
        [.turn 2 (.proceed (301 * nanosPerSecond))]) := by
  have hused : ∀ now : Instant, (200 * nanosPerSecond : Instant).elapsed now < idleLimit →
      UsedAt [.sent ⟨0, 0⟩ 0, .sent ⟨0, 0⟩ (200 * nanosPerSecond)] ⟨0, 0⟩ now := by
    intro now helapsed
    exact ⟨200 * nanosPerSecond, List.mem_cons_of_mem _ List.mem_cons_self, helapsed⟩
  refine ⟨fun h => ?_, fun h => ?_⟩
  · have hspares := (Run.follows_concat.mp h).2
    exact hspares 2 steadyConnection rfl (Or.inl ⟨rfl, rfl⟩) (hused _ (by decide))
  · have hspares := (Run.follows_concat.mp h).2
    rw [Run.final_concat] at hspares
    have hrecorded := recorded_run (steadyUse ++ [.spawn .checkConnectionHealth])
    have hfree : ∀ point ∈ (Run.final watch watchedStart (steadyUse ++ [.spawn .checkConnectionHealth])).1.tasks,
        point.holdsRead = false := by decide
    have hstored : (Run.final watch watchedStart (steadyUse ++ [.spawn .checkConnectionHealth])).1.shared.connections[(2 : UInt64)]? =
        some steadyConnection := rfl
    exact not_spares_checked hrecorded rfl hfree hstored (by decide) (hused _ (by decide)) hspares

end Connections

end IrohRaft
