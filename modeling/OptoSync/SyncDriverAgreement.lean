import OptoSync.SyncDriverContract

/-!
# The two drivers side by side

`sync_cycle` and `sync_cycle_atomic` run against one transport, with callbacks and stores that
always succeed. They stay in lockstep until a snapshot arrives that only the atomic driver
accepts.
-/
namespace OptoSync
open Decimal Interaction

namespace SyncDriver

/-- What the application is given to apply. -/
inductive Applied
  | change (change : Change)
  | snapshot (records : List SnapshotRecord)

/-- The transport and a record of what happened: the requests, the snapshots delivered (each
with the caller's checkpoint at that time), what was applied and which queues were persisted. -/
structure Environment (T : Type) where
  transport : T
  requests : List TransportOp
  delivered : List (String × SnapshotResponse)
  applied : List Applied
  persisted : List ProtocolQueue

variable {T τ : Type}

def Environment.start (transport : T) : Environment T :=
  { transport, requests := [], delivered := [], applied := [], persisted := [] }

def Environment.apply (env : Environment T) (content : List Applied) : Environment T :=
  { env with applied := env.applied ++ content }

theorem apply_nil (env : Environment T) : env.apply [] = env := by
  simp [Environment.apply]

def Environment.persist (env : Environment T) (queue : ProtocolQueue) : Environment T :=
  { env with persisted := env.persisted ++ [queue] }

def deliveredBy (checkpoint : String) : (op : TransportOp) → op.Answer τ →
    List (String × SnapshotResponse)
  | .snapshot _, .ok snapshot => [(checkpoint, snapshot)]
  | .snapshot _, .error _ => []
  | .push _, _ => []
  | .pull _ _, _ => []

/-- A transport: any machine that answers requests. -/
abbrev Reply (T τ : Type) : Type := (op : TransportOp) → T → op.Answer τ × T

def Environment.exchange (reply : Reply T τ) (checkpoint : String) (op : TransportOp)
    (env : Environment T) : op.Answer τ × Environment T :=
  ((reply op env.transport).1,
    { env with
      transport := (reply op env.transport).2
      requests := env.requests ++ [op]
      delivered := env.delivered ++ deliveredBy checkpoint op (reply op env.transport).1 })

/-- Separate stores: applying and persisting are two calls. -/
def answerCycle (reply : Reply T τ) :
    (op : CycleOp) → Environment T → op.Answer τ Empty Empty × Environment T
  | .transport queue op, env => env.exchange reply queue.checkpoint op
  | .applyChanges changes, env => (.ok (), env.apply (changes.map .change))
  | .replaceAuthoritative records, env => (.ok (), env.apply [.snapshot records])
  | .persist queue, env => (.ok (), env.persist queue)

/-- One store: apply, then persist the queue as it is given. -/
def answerAtomic (reply : Reply T τ) :
    (op : AtomicOp) → Environment T → op.Answer τ Empty × Environment T
  | .transport queue op, env => env.exchange reply queue.checkpoint op
  | .persistAcknowledgement queue _ _, env => (.ok queue, env.persist queue)
  | .applyChangesAndPersist changes queue, env =>
    (.ok queue, (env.apply (changes.map .change)).persist queue)
  | .replaceAuthoritativeAndPersist records queue, env =>
    (.ok queue, (env.apply [.snapshot records]).persist queue)

/-- The outcome of a run, the caller's queue after it, and the environment after it. -/
abbrev RunResult (T τ β : Type) : Type :=
  (Except (ProtocolSyncError τ Empty Empty) β × ProtocolQueue) × Environment T

def runCycle (reply : Reply T τ) (options : ProtocolSyncOptions) (queue : ProtocolQueue)
    (transport : T) : RunResult T τ ProtocolSyncCycleResult :=
  (syncCycle options queue).run (answerCycle reply) (.start transport)

def runCycleAtomic (reply : Reply T τ) (options : ProtocolSyncOptions) (queue : ProtocolQueue)
    (transport : T) : RunResult T τ ProtocolSyncCycleResult :=
  (syncCycleAtomic options queue).run (answerAtomic reply) (.start transport)

structure Agree {β : Type} (r r' : RunResult T τ β) : Prop where
  outcome : r.1.1 = r'.1.1
  requests : r.2.requests = r'.2.requests
  applied : r.2.applied = r'.2.applied
  persisted : r.2.persisted = r'.2.persisted
  queue : r.1.2 = r'.1.2

/-- Every snapshot that passes the response check also passes the queue's own check. -/
def Installable (delivered : List (String × SnapshotResponse)) : Prop :=
  ∀ d ∈ delivered, validateSnapshot d.2 d.1 = .ok () →
    d.2.records.all ProtocolQueue.installableRecord = true

/-- Either both runs went the same way, or `sync_cycle` stopped at a snapshot that the atomic
driver applied. -/
inductive Lockstep {β : Type} : RunResult T τ β → RunResult T τ β → Prop
  | same {r} (h : Installable r.2.delivered) : Lockstep r r
  | diverged {r r'} (error : ProtocolSyncError τ Empty Empty) (hr : r.1.1 = .error error)
      (hbad : ¬ Installable r.2.delivered)
      (hmore : r.2.applied.length < r'.2.applied.length) : Lockstep r r'

theorem Lockstep.agree_iff {β : Type} {r r' : RunResult T τ β} (h : Lockstep r r') :
    Agree r r' ↔ Installable r.2.delivered := by
  cases h with
  | same h => exact ⟨fun _ => h, fun _ => ⟨rfl, rfl, rfl, rfl, rfl⟩⟩
  | diverged error hr hbad hmore =>
    refine ⟨fun hagree => ?_, fun h => absurd h hbad⟩
    rw [hagree.applied] at hmore
    exact absurd hmore (lt_irrefl _)

/-- What has been applied stays applied. -/
theorem applied_length_le {β : Type} (reply : Reply T τ) (p : AtomicProgram τ Empty β)
    (env : Environment T) :
    env.applied.length ≤ (p.run (answerAtomic reply) env).2.applied.length := by
  refine run_rel (R := fun env env' : Environment T => env.applied.length ≤ env'.applied.length)
    (fun env => le_rfl) (fun env env' env'' h h' => h.trans h') (fun op env => ?_) p env
  cases op with
  | transport queue op => exact le_rfl
  | persistAcknowledgement queue request response => exact le_rfl
  | applyChangesAndPersist changes queue =>
    simp [answerAtomic, Environment.apply, Environment.persist]
  | replaceAuthoritativeAndPersist records queue =>
    simp [answerAtomic, Environment.apply, Environment.persist]

/-- Chaining: the continuations may assume that nothing has diverged, and pass errors through. -/
theorem Lockstep.bind {β γ : Type} {reply : Reply T τ} {env : Environment T}
    {p : CycleProgram τ Empty Empty β} {p' : AtomicProgram τ Empty β}
    {f : Except (ProtocolSyncError τ Empty Empty) β × ProtocolQueue →
      CycleProgram τ Empty Empty γ}
    {f' : Except (ProtocolSyncError τ Empty Empty) β × ProtocolQueue → AtomicProgram τ Empty γ}
    (hp : Lockstep (p.run (answerCycle reply) env) (p'.run (answerAtomic reply) env))
    (herror : ∀ error queue, f (.error error, queue) = .done (.error error, queue))
    (hf : ∀ out env, Installable env.delivered →
      Lockstep ((f out).run (answerCycle reply) env) ((f' out).run (answerAtomic reply) env)) :
    Lockstep ((p.bind f).run (answerCycle reply) env)
      ((p'.bind f').run (answerAtomic reply) env) := by
  rw [run_bind, run_bind]
  generalize p.run (answerCycle reply) env = r at hp
  generalize p'.run (answerAtomic reply) env = r' at hp
  cases hp with
  | same h => exact hf _ _ h
  | diverged error hr hbad hmore =>
    obtain ⟨⟨out, queue⟩, env⟩ := r
    cases hr
    rw [herror, run_done]
    exact .diverged error rfl hbad (hmore.trans_le (applied_length_le reply _ _))

theorem delivered_exchange_pull (reply : Reply T τ) (prior checkpoint : String) (limit : ℕ)
    (env : Environment T) :
    (env.exchange reply prior (.pull checkpoint limit)).2.delivered = env.delivered := by
  simp [Environment.exchange, deliveredBy]

theorem delivered_exchange_push (reply : Reply T τ) (prior : String) (request : PushRequest)
    (env : Environment T) :
    (env.exchange reply prior (.push request)).2.delivered = env.delivered := by
  simp [Environment.exchange, deliveredBy]

theorem delivered_exchange_snapshot (reply : Reply T τ) (prior : String) (reset : ResetRequired)
    (env : Environment T) :
    (env.exchange reply prior (.snapshot reset)).2.delivered = env.delivered ++
      deliveredBy prior (.snapshot reset) (env.exchange reply prior (.snapshot reset)).1 := rfl

theorem installable_append {delivered : List (String × SnapshotResponse)} {prior : String}
    {snapshot : SnapshotResponse} (h : Installable delivered) :
    Installable (delivered ++ [(prior, snapshot)]) ↔ (validateSnapshot snapshot prior = .ok () →
      snapshot.records.all ProtocolQueue.installableRecord = true) := by
  constructor
  · intro h'
    exact h' (prior, snapshot) (by simp)
  · intro hlast d hd
    rcases List.mem_append.mp hd with hd | hd
    · exact h d hd
    · rw [List.mem_singleton.mp hd]
      exact hlast

theorem installSnapshot_of_all {m : Type → Type} [Monad m] {ε : Type} {queue : ProtocolQueue}
    {snapshot : SnapshotResponse} {prior : String}
    {replace : List SnapshotRecord → m (Except ε Unit)}
    (hcheck : validateSnapshot snapshot prior = .ok ())
    (hall : snapshot.records.all ProtocolQueue.installableRecord = true) :
    queue.installSnapshot snapshot replace = (do
      match ← replace snapshot.records with
      | .error e => pure (.error (.replace e), queue)
      | .ok () => pure (.ok (), { queue with checkpoint := snapshot.checkpoint })) := by
  obtain ⟨⟨m, n, -, hn, -⟩, hversion, -⟩ := validateSnapshot_eq_ok hcheck
  unfold ProtocolQueue.installSnapshot
  refine (if_neg ?_).trans rfl
  simp [hversion, hn, hall]

theorem installSnapshot_of_not_all {m : Type → Type} [Monad m] {ε : Type} {queue : ProtocolQueue}
    {snapshot : SnapshotResponse} {replace : List SnapshotRecord → m (Except ε Unit)}
    (hall : ¬ snapshot.records.all ProtocolQueue.installableRecord = true) :
    queue.installSnapshot snapshot replace = pure (.error (.protocol .invalidSnapshot), queue) := by
  unfold ProtocolQueue.installSnapshot
  rw [if_pos (by simp only [Bool.not_eq_true] at hall; simp [hall])]

theorem lockstep_pullToCurrent (reply : Reply T τ) (options : ProtocolSyncOptions) (pages : ℕ)
    (queue : ProtocolQueue) (result : ProtocolSyncCycleResult) (env : Environment T)
    (henv : Installable env.delivered) :
    Lockstep ((pullToCurrent options pages queue result).run (answerCycle reply) env)
      ((pullToCurrentAtomic options pages queue result).run (answerAtomic reply) env) := by
  induction pages generalizing queue result env with
  | zero => exact .same henv
  | succ pages ih =>
    unfold pullToCurrent pullToCurrentAtomic
    simp only [run_call, answerCycle, answerAtomic]
    have hpulled := delivered_exchange_pull reply queue.checkpoint queue.checkpoint
      options.pullLimit env
    generalize env.exchange reply queue.checkpoint (.pull queue.checkpoint options.pullLimit) = x
      at hpulled
    obtain ⟨answer, env'⟩ := x
    have henv' : Installable env'.delivered := by rwa [hpulled]
    cases answer with
    | error failure => exact .same henv'
    | ok answer =>
      cases answer with
      | resetRequired reset =>
        dsimp only
        split
        · exact .same henv'
        · simp only [run_call, answerCycle, answerAtomic]
          have hsnapshot := delivered_exchange_snapshot reply queue.checkpoint reset env'
          generalize env'.exchange reply queue.checkpoint (.snapshot reset) = x at hsnapshot
          obtain ⟨answer, env''⟩ := x
          cases answer with
          | error failure =>
            refine .same ?_
            show Installable env''.delivered
            rw [show env''.delivered = env'.delivered ++ [] from hsnapshot, List.append_nil]
            exact henv'
          | ok snapshot =>
            replace hsnapshot :
                env''.delivered = env'.delivered ++ [(queue.checkpoint, snapshot)] := hsnapshot
            dsimp only
            cases hcheck : validateSnapshot snapshot queue.checkpoint with
            | error message =>
              refine .same ?_
              show Installable env''.delivered
              rw [hsnapshot]
              exact (installable_append henv').mpr fun h => by simp [hcheck] at h
            | ok u =>
              rw [setCheckpoint_of_le (validateSnapshot_eq_ok hcheck).1]
              by_cases hall : snapshot.records.all ProtocolQueue.installableRecord = true
              · rw [installSnapshot_of_all hcheck hall]
                refine ih _ _ _ ?_
                show Installable env''.delivered
                rw [hsnapshot]
                exact (installable_append henv').mpr fun _ => hall
              · rw [installSnapshot_of_not_all hall]
                refine .diverged (.protocol .invalidSnapshot) rfl ?_ ?_
                · show ¬ Installable env''.delivered
                  rw [hsnapshot]
                  exact fun h => hall ((installable_append henv').mp h hcheck)
                · simp only [run_call, answerAtomic]
                  refine lt_of_lt_of_le ?_ (applied_length_le reply _ _)
                  simp [Environment.apply, Environment.persist]
      | changes page =>
        dsimp only
        cases hcheck : validatePullPage page queue.checkpoint with
        | error message => exact .same henv'
        | ok u =>
          rw [setCheckpoint_of_le (validatePullPage_eq_ok hcheck).1.advances]
          dsimp only
          by_cases hempty : page.changes = []
          · rw [if_pos hempty, hempty]
            simp only [run_call, answerCycle, answerAtomic, List.map_nil, apply_nil, List.length_nil,
              Nat.add_zero]
            split_ifs
            · exact .same henv'
            · exact .same henv'
            · exact ih _ _ _ henv'
          · rw [if_neg hempty]
            simp only [run_call, answerCycle, answerAtomic]
            split_ifs
            · exact .same henv'
            · exact .same henv'
            · exact ih _ _ _ henv'

theorem lockstep_pushPending (reply : Reply T τ) (options : ProtocolSyncOptions) (batches : ℕ)
    (queue : ProtocolQueue) (result : ProtocolSyncCycleResult) (env : Environment T)
    (henv : Installable env.delivered) :
    Lockstep ((pushPending options batches queue result).run (answerCycle reply) env)
      ((pushPendingAtomic options batches queue result).run (answerAtomic reply) env) := by
  induction batches generalizing queue result env with
  | zero => exact .same henv
  | succ batches ih =>
    unfold pushPending pushPendingAtomic
    cases queue.pushRequest options.pushLimit with
    | error error => exact .same henv
    | ok request =>
      dsimp only
      split_ifs
      · exact .same henv
      · simp only [run_call, answerCycle, answerAtomic]
        have hpushed := delivered_exchange_push reply queue.checkpoint request env
        generalize env.exchange reply queue.checkpoint (.push request) = x at hpushed
        obtain ⟨answer, env'⟩ := x
        have henv' : Installable env'.delivered := by rwa [hpushed]
        cases answer with
        | error failure => exact .same henv'
        | ok response =>
          dsimp only
          rcases queue.acknowledge response request with ⟨error | count, acknowledged⟩
          · exact .same henv'
          · exact ih _ _ _ henv'

theorem lockstep_syncCycle (reply : Reply T τ) (options : ProtocolSyncOptions)
    (queue : ProtocolQueue) (transport : T) :
    Lockstep (runCycle reply options queue transport)
      (runCycleAtomic reply options queue transport) := by
  have hstart : Installable (Environment.start transport).delivered := by
    simp [Installable, Environment.start]
  refine (lockstep_pullToCurrent reply options _ queue _ _ hstart).bind
    (fun error queue => rfl) fun out env henv => ?_
  rcases out with ⟨error | result, queue⟩
  · exact .same henv
  · refine (lockstep_pushPending reply options _ queue result env henv).bind
      (fun error queue => rfl) fun out env henv => ?_
    rcases out with ⟨error | result, queue⟩
    · exact .same henv
    · refine (lockstep_pullToCurrent reply options _ queue _ env henv).bind
        (fun error queue => rfl) fun out env henv => ?_
      rcases out with ⟨error | result, queue⟩
      · exact .same henv
      · exact .same henv

/-- The two drivers agree exactly when every snapshot the transport delivers and the response
check accepts also passes the check of `install_snapshot`. -/
theorem syncCycle_agree_iff (reply : Reply T τ) (options : ProtocolSyncOptions)
    (queue : ProtocolQueue) (transport : T) :
    Agree (runCycle reply options queue transport) (runCycleAtomic reply options queue transport) ↔
      Installable (runCycle reply options queue transport).2.delivered :=
  (lockstep_syncCycle reply options queue transport).agree_iff

/-- A server with one snapshot, whose only table name is not a scope id. -/
def replyBadTable : Reply Unit Unit
  | .push _, s => (.error { source := (), retryable := true, retryAfter := none }, s)
  | .pull "0" _, s =>
    (.ok (.resetRequired { protocolVersion := 1, error := "RESET_REQUIRED", snapshotUrl := none }), s)
  | .pull checkpoint _, s =>
    (.ok (.changes { protocolVersion := 1, checkpoint, hasMore := false, changes := [] }), s)
  | .snapshot _, s =>
    (.ok { protocolVersion := 1, checkpoint := "1", records :=
      [{ table := "bad table", recordId := "a", record := .object [], revision := "1" }] }, s)

theorem syncCycle_disagree :
    let queue :=
      ProtocolQueue.empty "client" defaultMaxPendingMutations defaultMaxQueuedPayloadBytes
    ProtocolQueue.new "client" = .ok queue ∧
      ¬ Agree (runCycle replyBadTable .default queue ())
        (runCycleAtomic replyBadTable .default queue ()) := by
  refine ⟨by decide, fun h => ?_⟩
  exact absurd (congrArg ProtocolQueue.checkpoint h.queue) (by decide)

end SyncDriver
end OptoSync
