import IrohRaft.Management.Client

/-!
# Failing over from the cached leader

A call whose attempt at the cached leader fails goes on to write the cached leader while it still holds the
guard it read it through: it waits for itself, and nobody else gets to read the leader any more. A call that
does report a failure has tried every node, and only calls whose leader answered, or that knew none, come to
report anything.
-/

namespace IrohRaft.Management

open Rust

namespace IrohRaftManagementClient

variable {NodeAddr Connection Answer : Type} {statusLeader : ManagementResponse Answer → Option UInt64}
  {client client' : IrohRaftManagementClient NodeAddr Connection} {system : System NodeAddr Connection Answer}
  {tasks : List (Point Answer)} {point point' : Point Answer} {input : Input Connection Answer} {task : Nat}

/-! ### Turns -/

/-- The call waits for a lock that it holds itself. -/
def Point.WaitsForItself (point : Point Answer) : Prop := point.holdsRead = true ∧ point.waitsForWrite = true

theorem Point.waitsForItself_iff : point.WaitsForItself ↔ point = .clearLeader := by
  cases point <;> simp [WaitsForItself, holdsRead, waitsForWrite]

/-- The nodes that are still to be tried, none of them where a failure is reported. -/
def Point.remaining : Point Answer → Option (List UInt64)
  | .tryNodes nodeId rest => some (nodeId :: rest)
  | .returned (.err _) => some []
  | _ => none

/-- The call goes through the available nodes, or has done so. -/
def Point.Searches (point : Point Answer) : Prop := point = .listNodes ∨ ∃ nodes, point.remaining = some nodes

theorem Point.remaining_trying (nodes : List UInt64) : (Point.trying nodes : Point Answer).remaining = some nodes := by
  cases nodes <;> rfl

theorem Point.not_waitsForItself_trying (nodes : List UInt64) : ¬ (Point.trying nodes : Point Answer).WaitsForItself := by
  rw [Point.waitsForItself_iff]
  cases nodes <;> exact nofun

/-- Attempts may leave a connection behind, and nothing else. -/
theorem endpoints_sendRequestToNode (nodeId : UInt64) (attempt : Attempt Connection Answer)
    (client : IrohRaftManagementClient NodeAddr Connection) :
    (sendRequestToNode nodeId attempt client).2.endpoints = client.endpoints := by
  have hconnection : (getConnection nodeId attempt.connect client).2.endpoints = client.endpoints := by
    simp only [getConnection]
    cases client.connections[nodeId]? with
    | some connection => rfl
    | none =>
        cases client.endpoints[nodeId]? with
        | none => rfl
        | some address => cases attempt.connect <;> rfl
  rcases hget : getConnection nodeId attempt.connect client with ⟨connection | error | _, client'⟩
  · rw [hget] at hconnection
    rw [sendRequestToNode, Action.bind_of_ok hget]
    exact hconnection
  · rw [hget] at hconnection
    rw [sendRequestToNode, Action.bind_of_err hget]
    exact hconnection
  · rw [hget] at hconnection
    rw [sendRequestToNode, Action.bind_of_panic hget]
    exact hconnection

/-- What a turn of `send_request` can do. -/
inductive Move (client : IrohRaftManagementClient NodeAddr Connection) :
    Point Answer → Input Connection Answer → IrohRaftManagementClient NodeAddr Connection → Point Answer → Prop where
  | leaderFailed (leader : UInt64) (attempt : Attempt Connection Answer)
      (client' : IrohRaftManagementClient NodeAddr Connection) (error : RaftError)
      (failed : sendRequestToNode leader attempt client = (.err error, client')) :
      Move client (.attemptLeader leader) (.attempted attempt) client' .clearLeader
  | listed (nodes : List UInt64) (keys : nodes.Perm client.getAvailableNodes) :
      Move client .listNodes (.listed nodes) client (.trying nodes)
  | nodeFailed (nodeId : UInt64) (rest : List UInt64) (attempt : Attempt Connection Answer)
      (client' : IrohRaftManagementClient NodeAddr Connection) (error : RaftError)
      (failed : sendRequestToNode nodeId attempt client = (.err error, client')) :
      Move client (.tryNodes nodeId rest) (.attempted attempt) (client'.removeConnection nodeId) (.trying rest)
  | leaderless (point : Point Answer) (client' : IrohRaftManagementClient NodeAddr Connection)
      (endpoints : client'.endpoints = client.endpoints) (leader : client'.currentLeader = none) :
      Move client point .proceed client' .listNodes
  | other (point point' : Point Answer) (input : Input Connection Answer)
      (client' : IrohRaftManagementClient NodeAddr Connection) (endpoints : client'.endpoints = client.endpoints)
      (searches : ¬ point'.Searches) (waits : ¬ point'.WaitsForItself)
      (answered : ∀ leader attempt error, point = .attemptLeader leader → input = .attempted attempt →
        (sendRequestToNode leader attempt client).1 ≠ .err error) : Move client point input client' point'

theorem Move.otherwise (client : IrohRaftManagementClient NodeAddr Connection) (hsearches : ¬ point'.Searches)
    (hwaits : ¬ point'.WaitsForItself) (hpoint : ∀ leader, point ≠ .attemptLeader leader)
    (hendpoints : client'.endpoints = client.endpoints) : Move client point input client' point' :=
  .other point point' input client' hendpoints hsearches hwaits fun leader _ _ hleader => absurd hleader (hpoint leader)

theorem move_of_attempt {leader : UInt64} {attempt : Attempt Connection Answer}
    (h : sendRequest statusLeader client tasks (.attemptLeader leader) (.attempted attempt) = some (client', point')) :
    Move client (.attemptLeader leader) (.attempted attempt) client' point' := by
  have hendpoints := endpoints_sendRequestToNode leader attempt client
  rw [sendRequest] at h
  rcases hattempt : sendRequestToNode leader attempt client with ⟨response | error | _, after⟩
  · rw [hattempt] at h hendpoints
    cases h
    refine .other _ _ _ _ hendpoints (by simp [Point.Searches, Point.remaining]) nofun fun leader' attempt' error hleader hinput => ?_
    cases hleader
    cases hinput
    rw [hattempt]
    exact nofun
  · rw [hattempt] at h
    cases h
    exact .leaderFailed leader attempt _ error hattempt
  · rw [hattempt] at h hendpoints
    cases h
    refine .other _ _ _ _ hendpoints (by simp [Point.Searches, Point.remaining]) nofun fun leader' attempt' error hleader hinput => ?_
    cases hleader
    cases hinput
    rw [hattempt]
    exact nofun

theorem move_of_tryNodes {nodeId : UInt64} {rest : List UInt64} {attempt : Attempt Connection Answer}
    (h : sendRequest statusLeader client tasks (.tryNodes nodeId rest) (.attempted attempt) = some (client', point')) :
    Move client (.tryNodes nodeId rest) (.attempted attempt) client' point' := by
  have hendpoints := endpoints_sendRequestToNode nodeId attempt client
  rw [sendRequest] at h
  rcases hattempt : sendRequestToNode nodeId attempt client with ⟨response | error | _, after⟩
  · rw [hattempt] at h hendpoints
    dsimp only at h
    split at h <;>
      · cases h
        exact .otherwise client (by simp [Point.Searches, Point.remaining]) nofun nofun hendpoints
  · rw [hattempt] at h
    cases h
    exact .nodeFailed nodeId rest attempt _ error hattempt
  · rw [hattempt] at h hendpoints
    cases h
    exact .otherwise client (by simp [Point.Searches, Point.remaining]) nofun nofun hendpoints

/-- A call that is dropped fails no more. -/
theorem move_of_cancel (h : sendRequest statusLeader client tasks point .cancel = some (client', point')) :
    Move client point .cancel client' point' := by
  have hdropped : client' = client ∧ point' = .dropped := by
    cases point with
    | returned _ | dropped => exact nomatch h
    | _ =>
        cases h
        exact ⟨rfl, rfl⟩
  obtain ⟨rfl, rfl⟩ := hdropped
  exact .other _ _ _ _ rfl (by simp [Point.Searches, Point.remaining]) nofun fun _ _ _ _ hinput => nomatch hinput

theorem move_of_sendRequest (h : sendRequest statusLeader client tasks point input = some (client', point')) :
    Move client point input client' point' := by
  cases input with
  | cancel => exact move_of_cancel h
  | attempted attempt =>
      cases point with
      | attemptLeader leader => exact move_of_attempt h
      | tryNodes nodeId rest => exact move_of_tryNodes h
      | _ => simp [sendRequest] at h
  | listed nodes =>
      cases point with
      | listNodes =>
          rw [sendRequest] at h
          split at h
          · next hkeys =>
              cases h
              exact .listed nodes hkeys
          · exact nomatch h
      | _ => simp [sendRequest] at h
  | proceed =>
      cases point with
      | readLeader =>
          rw [sendRequest] at h
          split at h
          · exact nomatch h
          cases hleader : client.currentLeader with
          | some leader =>
              rw [hleader] at h
              cases h
              exact .otherwise client (by simp [Point.Searches, Point.remaining]) nofun nofun rfl
          | none =>
              rw [hleader] at h
              cases h
              exact .leaderless .readLeader client rfl hleader
      | clearLeader =>
          rw [sendRequest] at h
          split at h
          · exact nomatch h
          · cases h
            exact .leaderless .clearLeader _ rfl rfl
      | updateLeader leader response =>
          rw [sendRequest] at h
          split at h
          · exact nomatch h
          · cases h
            exact .otherwise client (by simp [Point.Searches, Point.remaining]) nofun nofun rfl
      | _ => simp [sendRequest] at h

theorem Move.endpoints_eq (h : Move client point input client' point') : client'.endpoints = client.endpoints := by
  cases h with
  | leaderFailed leader attempt _ error hfailed =>
      have hendpoints := endpoints_sendRequestToNode leader attempt client
      rwa [hfailed] at hendpoints
  | listed => rfl
  | nodeFailed nodeId rest attempt after error hfailed =>
      have hendpoints := endpoints_sendRequestToNode nodeId attempt client
      rwa [hfailed] at hendpoints
  | leaderless _ _ hendpoints => exact hendpoints
  | other _ _ _ _ hendpoints => exact hendpoints

theorem Move.getAvailableNodes_eq (h : Move client point input client' point') :
    client'.getAvailableNodes = client.getAvailableNodes := by
  rw [getAvailableNodes, getAvailableNodes, h.endpoints_eq]

/-! ### The guard -/

/-- No attempt at the cached leader fails at this step. -/
def LeaderAnswers (system : System NodeAddr Connection Answer) (label : Label Connection Answer) : Prop :=
  ∀ task attempt leader, label = .turn task (.attempted attempt) → system.tasks[task]? = some (.attemptLeader leader) →
    ∀ error, (sendRequestToNode leader attempt system.shared).1 ≠ .err error

def NobodyWaitsForItself (system : System NodeAddr Connection Answer) : Prop :=
  ∀ point ∈ system.tasks, ¬ point.WaitsForItself

theorem Move.waitsForItself_iff (h : Move client point input client' point') :
    point'.WaitsForItself ↔ ∃ leader attempt error, point = .attemptLeader leader ∧ input = .attempted attempt ∧
      (sendRequestToNode leader attempt client).1 = .err error := by
  cases h with
  | leaderFailed leader attempt _ error hfailed =>
      exact iff_of_true ⟨rfl, rfl⟩ ⟨leader, attempt, error, rfl, rfl, by rw [hfailed]⟩
  | listed nodes _ => exact iff_of_false (Point.not_waitsForItself_trying nodes) (by simp)
  | nodeFailed nodeId rest attempt _ error _ => exact iff_of_false (Point.not_waitsForItself_trying rest) (by simp)
  | leaderless => exact iff_of_false nofun (by simp)
  | other _ _ _ _ _ _ hwaits hanswered =>
      refine iff_of_false hwaits fun hfailed => ?_
      obtain ⟨leader, attempt, error, hleader, hinput, herror⟩ := hfailed
      exact hanswered leader attempt error hleader hinput herror

theorem advance_of_failed (statusLeader : ManagementResponse Answer → Option UInt64) {leader : UInt64}
    {attempt : Attempt Connection Answer} {error : RaftError}
    (herror : (sendRequestToNode leader attempt client).1 = .err error) :
    (program statusLeader).advance client tasks (.attemptLeader leader) (.attempted attempt) =
      some ((sendRequestToNode leader attempt client).2, .clearLeader) := by
  show sendRequest statusLeader client tasks (.attemptLeader leader) (.attempted attempt) = _
  rw [sendRequest]
  rcases hattempt : sendRequestToNode leader attempt client with ⟨response | error' | _, client'⟩
  · rw [hattempt] at herror
    exact nomatch herror
  · rfl
  · rw [hattempt] at herror
    exact nomatch herror

/-- One step: somebody comes to wait for itself exactly if an attempt at the cached leader fails. -/
theorem leaderAnswers_iff (h : NobodyWaitsForItself system) (label : Label Connection Answer) :
    LeaderAnswers system label ↔ NobodyWaitsForItself (Tasks.step (program statusLeader) system label) := by
  cases label with
  | spawn kind =>
      refine iff_of_true (fun _ _ _ hlabel => nomatch hlabel) fun point hpoint => ?_
      obtain hbefore | hentry := List.mem_append.mp hpoint
      · exact h point hbefore
      · rw [List.mem_singleton.mp hentry]
        exact nofun
  | turn task input =>
      cases hpoint : system.tasks[task]? with
      | none =>
          rw [Tasks.step_turn_of_absent _ input hpoint]
          refine iff_of_true (fun task' attempt leader hlabel hleader => ?_) h
          cases hlabel
          exact nomatch hpoint.symm.trans hleader
      | some point =>
          cases hadvance : (program statusLeader).advance system.shared system.tasks point input with
          | none =>
              rw [Tasks.step_turn_of_lost _ input hpoint hadvance]
              refine iff_of_true (fun task' attempt leader hlabel hleader error herror => ?_) h
              cases hlabel
              obtain rfl := Option.some.inj (hpoint.symm.trans hleader)
              exact nomatch (advance_of_failed statusLeader herror).symm.trans hadvance
          | some moved =>
              obtain ⟨client', point'⟩ := moved
              have hmove : Move system.shared point input client' point' := move_of_sendRequest hadvance
              rw [Tasks.step_turn_of_move _ input hpoint hadvance]
              refine Iff.trans ?_ (Tasks.forall_not_mem_set_iff hpoint h).symm
              rw [hmove.waitsForItself_iff]
              apply Iff.intro
              · intro hanswers hfailed
                obtain ⟨leader, attempt, error, rfl, rfl, herror⟩ := hfailed
                exact hanswers task attempt leader rfl hpoint error herror
              · intro hnot task' attempt leader hlabel hleader error herror
                cases hlabel
                exact hnot ⟨leader, attempt, error, Option.some.inj (hpoint.symm.trans hleader), rfl, herror⟩

/-- A call that waits for itself does so until its caller drops it. -/
theorem clearLeader_of_step {label : Label Connection Answer} (h : system.tasks[task]? = some .clearLeader)
    (hkept : label ≠ .turn task .cancel) :
    (Tasks.step (program statusLeader) system label).tasks[task]? = some .clearLeader := by
  have hholds : system.tasks.any Point.holdsRead = true :=
    List.any_eq_true.mpr ⟨.clearLeader, List.mem_of_getElem? h, rfl⟩
  cases label with
  | spawn kind => exact Tasks.getElem?_append_of_some h
  | turn other input =>
      obtain hsame | ⟨point, client', point', hpoint, hadvance, hstep⟩ :=
        Tasks.step_turn_cases (program statusLeader) system other input
      · rw [hsame]
        exact h
      · by_cases hself : other = task
        · subst hself
          obtain rfl := Option.some.inj (hpoint.symm.trans h)
          have hturn : sendRequest statusLeader system.shared system.tasks .clearLeader input = some (client', point') := hadvance
          cases input with
          | cancel => exact absurd rfl hkept
          | proceed =>
              rw [sendRequest, if_pos hholds] at hturn
              exact nomatch hturn
          | _ => simp [sendRequest] at hturn
        · rw [hstep, List.getElem?_set_ne hself]
          exact h

/-- So it never comes to clear the leader or to try another node. -/
theorem clearLeader_run (labels : List (Label Connection Answer)) (h : system.tasks[task]? = some .clearLeader)
    (hkept : ∀ label ∈ labels, label ≠ .turn task .cancel) :
    (Run.final (Tasks.step (program statusLeader)) system labels).tasks[task]? = some .clearLeader :=
  Run.final_invariant (fun reached : System NodeAddr Connection Answer => reached.tasks[task]? = some .clearLeader)
    (fun label hlabel _ hthere => clearLeader_of_step hthere (hkept label hlabel)) h

/-! ### The search -/

/-- What calls did: which found no leader or cleared it, and which tried which nodes after that. -/
structure Record where
  leaderless : List Nat
  tried : List (Nat × UInt64)

def Record.empty : Record := ⟨[], []⟩

def Record.note (before : System NodeAddr Connection Answer) (label : Label Connection Answer)
    (after : System NodeAddr Connection Answer) (record : Record) : Record :=
  match label with
  | .turn task .proceed =>
      match after.tasks[task]?, after.shared.currentLeader with
      | some .listNodes, none => { record with leaderless := record.leaderless ++ [task] }
      | _, _ => record
  | .turn task (.attempted _) =>
      match before.tasks[task]? with
      | some (.tryNodes nodeId _) => { record with tried := record.tried ++ [(task, nodeId)] }
      | _ => record
  | _ => record

/-- The client with the record kept beside it. -/
def recorded (statusLeader : ManagementResponse Answer → Option UInt64) :
    System NodeAddr Connection Answer × Record → Label Connection Answer → System NodeAddr Connection Answer × Record :=
  Tasks.recording (program statusLeader) Record.note

theorem recorded_fst (start : System NodeAddr Connection Answer) (record : Record) (labels : List (Label Connection Answer)) :
    (Run.final (recorded statusLeader) (start, record) labels).1 =
      Run.final (Tasks.step (program statusLeader)) start labels := by
  have hstep (watched : System NodeAddr Connection Answer × Record) (reached : System NodeAddr Connection Answer)
      (label : Label Connection Answer) (hsame : watched.1 = reached) :
      (recorded statusLeader watched label).1 = Tasks.step (program statusLeader) reached label := by
    rw [← hsame]
    rfl
  exact Run.final_related (recorded statusLeader) (Tasks.step (program statusLeader))
    (fun watched reached => watched.1 = reached) hstep rfl labels

variable {record record' : Record} {nodes : List UInt64}

/-- The first record holds all that the second does. -/
structure Record.Includes (record' record : Record) : Prop where
  leaderless : record.leaderless ⊆ record'.leaderless
  tried : record.tried ⊆ record'.tried

theorem Record.Includes.refl (record : Record) : record.Includes record := ⟨List.Subset.refl _, List.Subset.refl _⟩

theorem Record.note_includes (before : System NodeAddr Connection Answer) (label : Label Connection Answer)
    (after : System NodeAddr Connection Answer) (record : Record) : (Record.note before label after record).Includes record := by
  unfold Record.note
  split
  · split
    · exact ⟨List.subset_append_left _ _, List.Subset.refl _⟩
    · exact .refl record
  · split
    · exact ⟨List.Subset.refl _, List.subset_append_left _ _⟩
    · exact .refl record
  · exact .refl record

theorem Record.mem_leaderless_note {after : System NodeAddr Connection Answer} (hpoint : after.tasks[task]? = some .listNodes)
    (hleader : after.shared.currentLeader = none) (before : System NodeAddr Connection Answer) (record : Record) :
    task ∈ (Record.note before (.turn task .proceed) after record).leaderless := by
  rw [Record.note]
  simp [hpoint, hleader]

theorem Record.mem_tried_note {before : System NodeAddr Connection Answer} {nodeId : UInt64} {rest : List UInt64}
    (hpoint : before.tasks[task]? = some (.tryNodes nodeId rest)) (attempt : Attempt Connection Answer)
    (after : System NodeAddr Connection Answer) (record : Record) :
    (task, nodeId) ∈ (Record.note before (.turn task (.attempted attempt)) after record).tried := by
  rw [Record.note]
  simp [hpoint]

/-- A call that goes through the nodes knows no leader, and has tried those that are not left to be tried. -/
structure Seen (nodes : List UInt64) (record : Record) (task : Nat) (point : Point Answer) : Prop where
  leaderless : point.Searches → task ∈ record.leaderless
  tried : ∀ remaining, point.remaining = some remaining → ∀ node ∈ nodes, node ∈ remaining ∨ (task, node) ∈ record.tried

theorem Seen.of_not_searches (h : ¬ point.Searches) : Seen nodes record task point :=
  ⟨fun hsearches => absurd hsearches h, fun remaining hremaining => absurd (.inr ⟨remaining, hremaining⟩) h⟩

theorem Seen.mono (h : Seen nodes record task point) (hincludes : record'.Includes record) : Seen nodes record' task point :=
  ⟨fun hsearches => hincludes.leaderless (h.leaderless hsearches), fun remaining hremaining node hnode =>
    (h.tried remaining hremaining node hnode).imp_right fun htried => hincludes.tried htried⟩

theorem Seen.trying {remaining : List UInt64} (hleaderless : task ∈ record.leaderless)
    (htried : ∀ node ∈ nodes, node ∈ remaining ∨ (task, node) ∈ record.tried) :
    Seen nodes record task (Point.trying remaining : Point Answer) := by
  refine ⟨fun _ => hleaderless, fun others hremaining => ?_⟩
  rw [Point.remaining_trying] at hremaining
  obtain rfl := Option.some.inj hremaining
  exact htried

theorem Move.seen (h : Move client point input client' point') (hclient : client.getAvailableNodes = nodes)
    (hseen : Seen nodes record task point) (hincludes : record'.Includes record)
    (hleaderless : input = .proceed → point' = .listNodes → client'.currentLeader = none → task ∈ record'.leaderless)
    (htried : ∀ nodeId rest attempt, point = .tryNodes nodeId rest → input = .attempted attempt →
      (task, nodeId) ∈ record'.tried) : Seen nodes record' task point' := by
  cases h with
  | leaderFailed leader attempt _ error _ => exact .of_not_searches (by simp [Point.Searches, Point.remaining])
  | listed listed hkeys =>
      refine .trying (hincludes.leaderless (hseen.leaderless (.inl rfl))) fun node hnode => .inl ?_
      rw [← hclient] at hnode
      exact hkeys.mem_iff.mpr hnode
  | nodeFailed nodeId rest attempt after error _ =>
      have hbefore : (Point.tryNodes nodeId rest : Point Answer).remaining = some (nodeId :: rest) := rfl
      refine .trying (hincludes.leaderless (hseen.leaderless (.inr ⟨_, hbefore⟩))) fun node hnode => ?_
      obtain hleft | hdone := hseen.tried _ hbefore node hnode
      · obtain rfl | hrest := List.mem_cons.mp hleft
        · exact .inr (htried node rest attempt rfl rfl)
        · exact .inl hrest
      · exact .inr (hincludes.tried hdone)
  | leaderless _ _ _ hleader => exact ⟨fun _ => hleaderless rfl rfl hleader, fun _ hremaining => nomatch hremaining⟩
  | other _ _ _ _ _ hsearches => exact .of_not_searches hsearches

/-- What every call that goes through the nodes has done. -/
structure Searched (nodes : List UInt64) (watched : System NodeAddr Connection Answer × Record) : Prop where
  available : watched.1.shared.getAvailableNodes = nodes
  seen : ∀ task point, watched.1.tasks[task]? = some point → Seen nodes watched.2 task point

theorem Searched.step {watched : System NodeAddr Connection Answer × Record} (h : Searched nodes watched)
    (label : Label Connection Answer) : Searched nodes (recorded statusLeader watched label) := by
  obtain ⟨system, record⟩ := watched
  have hincludes := Record.note_includes system label (Tasks.step (program statusLeader) system label) record
  cases label with
  | spawn kind =>
      refine ⟨h.available, fun task point hpoint => ?_⟩
      obtain rfl | hbefore := Tasks.getElem?_append_cases hpoint
      · exact .of_not_searches (by simp [program, Point.Searches, Point.remaining])
      · exact h.seen task point hbefore
  | turn task input =>
      obtain hsame | ⟨point, client', point', hpoint, hadvance, hstep⟩ :=
        Tasks.step_turn_cases (program statusLeader) system task input
      · rw [hsame] at hincludes
        rw [recorded, Tasks.recording, hsame]
        exact ⟨h.available, fun other there hthere => (h.seen other there hthere).mono hincludes⟩
      · have hmove : Move system.shared point input client' point' := move_of_sendRequest hadvance
        rw [hstep] at hincludes
        rw [recorded, Tasks.recording, hstep]
        refine ⟨hmove.getAvailableNodes_eq.trans h.available, fun other there hthere => ?_⟩
        obtain ⟨rfl, rfl⟩ | ⟨_, hbefore⟩ := Tasks.getElem?_set_cases hthere
        · refine hmove.seen h.available (h.seen other point hpoint) hincludes ?_ ?_
          · intro hinput hlisting hleader
            subst hinput hlisting
            exact Record.mem_leaderless_note hthere hleader system record
          · intro nodeId rest attempt hnode hinput
            subst hinput hnode
            exact Record.mem_tried_note hpoint attempt ⟨client', system.tasks.set other there⟩ record
        · exact (h.seen other there hbefore).mono hincludes

theorem Searched.run (client : IrohRaftManagementClient NodeAddr Connection) (labels : List (Label Connection Answer)) :
    Searched client.getAvailableNodes (Run.final (recorded statusLeader) (⟨client, []⟩, .empty) labels) :=
  Run.final_invariant (Searched client.getAvailableNodes) (fun label _ _ hsearched => hsearched.step label)
    ⟨rfl, fun _ _ hpoint => nomatch hpoint⟩

/-! ### Runs -/

/-- A call that reports failure has found no leader or cleared it, and then tried every node. -/
def ReportsAfterSearch (watched : System NodeAddr Connection Answer × Record) : Prop :=
  ∀ task error, watched.1.tasks[task]? = some (.returned (.err error)) →
    task ∈ watched.2.leaderless ∧ ∀ node ∈ watched.1.shared.getAvailableNodes, (task, node) ∈ watched.2.tried

theorem Searched.reportsAfterSearch {watched : System NodeAddr Connection Answer × Record} (h : Searched nodes watched) :
    ReportsAfterSearch watched := by
  intro task error hreported
  have hseen := h.seen task _ hreported
  refine ⟨hseen.leaderless (.inr ⟨[], rfl⟩), fun node hnode => ?_⟩
  rw [h.available] at hnode
  exact (hseen.tried [] rfl node hnode).resolve_left List.not_mem_nil

/-- All along, nobody waits for itself, and who reports failure has gone through all the nodes. -/
def FailsOver (statusLeader : ManagementResponse Answer → Option UInt64)
    (client : IrohRaftManagementClient NodeAddr Connection) (labels : List (Label Connection Answer)) : Prop :=
  ∀ done, done <+: labels →
    NobodyWaitsForItself (Run.final (recorded statusLeader) (⟨client, []⟩, .empty) done).1 ∧
      ReportsAfterSearch (Run.final (recorded statusLeader) (⟨client, []⟩, .empty) done)

/-- Calls fail over as they should exactly as long as no attempt at a cached leader fails. -/
theorem failsOver_iff (statusLeader : ManagementResponse Answer → Option UInt64)
    (client : IrohRaftManagementClient NodeAddr Connection) (labels : List (Label Connection Answer)) :
    FailsOver statusLeader client labels ↔
      Run.Follows (Tasks.step (program statusLeader)) LeaderAnswers ⟨client, []⟩ labels := by
  have hnobody : NobodyWaitsForItself (⟨client, []⟩ : System NodeAddr Connection Answer) := fun _ hpoint => nomatch hpoint
  rw [Run.follows_iff_forall_prefix NobodyWaitsForItself (fun system label hbefore => leaderAnswers_iff hbefore label) hnobody]
  apply Iff.intro
  · intro h done hprefix
    rw [← recorded_fst _ .empty]
    exact (h done hprefix).1
  · intro h done hprefix
    refine ⟨?_, (Searched.run client done).reportsAfterSearch⟩
    rw [recorded_fst]
    exact h done hprefix

/-- A client that knows one node, as the leader. -/
def lostLeader : IrohRaftManagementClient Unit Unit where
  connections := ∅
  endpoints := (∅ : HashMap UInt64 Unit).insert 1 ()
  currentLeader := some 1

/-- The leader cannot be reached. -/
def refused : Attempt Unit Unit where
  connect := .error "refused"
  exchange := .panic

theorem not_failsOver : ¬ ∀ (statusLeader : ManagementResponse Unit → Option UInt64)
    (client : IrohRaftManagementClient Unit Unit) (labels : List (Label Unit Unit)), FailsOver statusLeader client labels := by
  intro h
  have hwaits := (h (fun _ => none) lostLeader [.spawn (), .turn 0 .proceed, .turn 0 (.attempted refused)] _ List.prefix_rfl).1
  have hfailed : (sendRequestToNode 1 refused lostLeader).1 = .err (.internal "Failed to connect to node 1: refused") := by
    rfl
  have hclear : (Point.clearLeader : Point Unit) ∈
      (Run.final (Tasks.step (program fun _ => none)) (⟨lostLeader, []⟩ : System Unit Unit Unit)
        [.spawn (), .turn 0 .proceed, .turn 0 (.attempted refused)]).tasks := by
    simp only [Run.final_cons, Run.final_nil]
    rw [Tasks.step_turn_of_move _ _ rfl (advance_of_failed _ hfailed)]
    exact List.mem_singleton.mpr rfl
  rw [← recorded_fst _ .empty] at hclear
  exact hwaits .clearLeader hclear ⟨rfl, rfl⟩

end IrohRaftManagementClient

end IrohRaft.Management
