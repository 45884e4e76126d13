import SliceScheduler.Proofs.Stage
/-!
# Local work between two calls

The store's answer to the call of a stage is followed by local work up to the next call or wait.

1. `Node.settle_andThen` does the local work of a program in two parts;
2. `Program.Calls` says which call a program makes and what the local work after its answer leaves;
3. one lemma for each kind of stage says that its program makes its call, and that its reaction is
   what the local work leaves.
-/
namespace SliceScheduler

open Program

/-- The program of the next stage, or the result. -/
def Program.ofSum {σ α : Type} (program : σ → Program α) : σ ⊕ α → Program α
  | .inl s => program s
  | .inr a => .done a

namespace Node

/-- Does the local work of what comes after a program that is done. -/
def settleOn {α β : Type} (now : Instant) (number : Nat) (g : α → Program β) :
    Node × Program α → Node × Program β
  | (n, .done a) => n.settle now number (g a)
  | (n, .ask r next) => (n, (Program.ask r next).andThen g)

theorem settle_andThen {α β : Type} (now : Instant) (number : Nat) (n : Node) (p : Program α)
    (g : α → Program β) :
    n.settle now number (p.andThen g) = settleOn now number g (n.settle now number p) := by
  induction p generalizing n with
  | done a => rfl
  | ask r next ih =>
    cases r with
    | look => exact ih _ n
    | change f => exact ih _ { n with desk := f n.desk }
    | now => exact ih _ n
    | startDrain slice => exact ih _ (n.startDrain slice)
    | startJob slice id => exact ih _ (n.spawn (.job number) (Program.runJob slice id))
    | openDrains => exact ih _ n
    | leavePointer => exact ih _ { n with advancing := false }
    | call op => rfl
    | holdPointer => rfl
    | advance fromTick => rfl
    | takePermit => rfl
    | awaitJobs => rfl
    | execute registration job => rfl
    | pause d => rfl

/-- Sets off the draining of a slice, if there is one to drain. -/
def drainAny (n : Node) : Option Slice → Node
  | some slice => n.startDrain slice
  | none => n

/-- Does things to the desk and sets off the draining of a slice, if there is one to drain. -/
def work (n : Node) (desk : Desk) (drained : Option Slice) : Node :=
  { n with desk }.drainAny drained

@[simp] theorem work_none (n : Node) (desk : Desk) : n.work desk none = { n with desk } := rfl

@[simp] theorem desk_drainAny (n : Node) (o : Option Slice) : (n.drainAny o).desk = n.desk := by
  cases o <;> rfl

@[simp] theorem desk_work (n : Node) (desk : Desk) (o : Option Slice) :
    (n.work desk o).desk = desk := by
  cases o <;> rfl

end Node

/-- The program makes a call; the local work after its answer, on a node with the given settings,
leaves what `after` says. -/
def Program.Calls {α : Type} (set : NodeSettings) (now : Instant) (number : Nat) (p : Program α)
    (op : Operation) (after : Node → op.Result → Node × Program α) : Prop :=
  ∃ next : op.Result → Program α, p = .ask (.call op) next ∧
    ∀ n answer, n.desk.settings = set → n.settle now number (next answer) = after n answer

theorem Program.Calls.asks {α : Type} {set : NodeSettings} {now : Instant} {number : Nat}
    {p : Program α} {op : Operation} {after : Node → op.Result → Node × Program α}
    (calls : p.Calls set now number op after) : ∃ r next, p = .ask r next := by
  obtain ⟨next, shape, -⟩ := calls
  exact ⟨_, _, shape⟩

theorem Program.Calls.andThen {α β : Type} {set : NodeSettings} {now : Instant} {number : Nat}
    {p : Program α} {op : Operation} {after : Node → op.Result → Node × Program α}
    (calls : p.Calls set now number op after) (g : α → Program β) :
    (p.andThen g).Calls set now number op fun n answer =>
      Node.settleOn now number g (after n answer) := by
  obtain ⟨next, rfl, settles⟩ := calls
  refine ⟨fun answer => (next answer).andThen g, rfl, fun n answer same => ?_⟩
  rw [Node.settle_andThen, settles n answer same]

theorem Program.Calls.congr {α : Type} {set : NodeSettings} {now : Instant} {number : Nat}
    {p : Program α} {op : Operation} {after after' : Node → op.Result → Node × Program α}
    (calls : p.Calls set now number op after)
    (same : ∀ n answer, n.desk.settings = set → after n answer = after' n answer) :
    p.Calls set now number op after' := by
  obtain ⟨next, shape, settles⟩ := calls
  refine ⟨next, shape, fun n answer settings => ?_⟩
  rw [settles n answer settings, same n answer settings]

section Calls

variable (set : NodeSettings) (now : Instant) (number : Nat)

theorem SeekStage.calls (s : SeekStage) :
    s.program.Calls set now number s.op fun n answer =>
      (n, ofSum program (s.react now set.width answer)) := by
  cases s with
  | read =>
    refine ⟨_, rfl, fun n answer same => ?_⟩
    subst same
    rcases answer with e | _ | pointer <;> rfl
  | init current =>
    refine ⟨_, rfl, fun n answer _ => ?_⟩
    rcases answer with e | _ | _ <;> rfl
  | reread =>
    refine ⟨_, rfl, fun n answer _ => ?_⟩
    rfl

/-- The comparison of names goes on with a call. -/
theorem SubmitStage.nameJob_eq (job : Job) (slice : Slice) (others : List JobId) :
    nameJob job slice others = (names others).program job slice := by
  cases others <;> rfl

/-- Local work stops at the call of a stage of a submission. -/
theorem SubmitStage.settle_program (job : Job) (slice : Slice) (n : Node) (s : SubmitStage) :
    n.settle now number (s.program job slice).run = (n, (s.program job slice).run) := by
  cases s <;> rfl

/-- What is left of a submission once it is known which slice is active. -/
theorem SubmitStage.settle_placed (job : Job) (slice active : Slice) (n : Node) :
    n.settle now number
      (do
        if slice < active then refuse (.sliceAlreadyProcessed slice active)
        fileJob job slice : Submission Job).run =
    (n, ofSum (fun s => (program job slice s).run)
      (if slice < active then
        .inr (.error (.invalidSubmission (.sliceAlreadyProcessed slice active)))
      else .inl sets)) := by
  by_cases before : slice < active
  · rw [if_pos before, if_pos before]
    rfl
  · rw [if_neg before, if_neg before]
    rfl

/-- What is left of a submission after a name was compared. -/
theorem SubmitStage.settle_compared (job existing : Job) (slice : Slice) (rest : List JobId)
    (n : Node) :
    n.settle now number
      ((do
        if existing.type = job.type ∧ existing.name = job.name then
          refuse (.duplicateJobName job.type job.name slice)
        checkName job slice rest : Submission Unit) >>= fun _ => storeJob job slice).run =
    (n, ofSum (fun s => (program job slice s).run)
      (if existing.type = job.type ∧ existing.name = job.name then
        .inr (.error (.invalidSubmission (.duplicateJobName job.type job.name slice)))
      else .inl (names rest))) := by
  by_cases same : existing.type = job.type ∧ existing.name = job.name
  · rw [if_pos same, if_pos same]
    rfl
  · rw [if_neg same, if_neg same]
    show n.settle now number (nameJob job slice rest).run = _
    rw [nameJob_eq]
    exact settle_program now number job slice n (names rest)

theorem SubmitStage.calls (job : Job) (slice : Slice) (s : SubmitStage) :
    ((s.program job slice).run).Calls set now number (s.op job slice) fun n answer =>
      (n, ofSum (fun s => (program job slice s).run)
        (s.react now set.width job slice answer)) := by
  cases s with
  | pointer =>
    refine ⟨_, rfl, fun n answer same => ?_⟩
    subst same
    rcases answer with e | _ | pointer
    · rfl
    · exact settle_placed now number job slice _ n
    · exact settle_placed now number job slice pointer n
  | sets =>
    refine ⟨_, rfl, fun n answer _ => ?_⟩
    rcases answer with e | index
    · rfl
    · show n.settle now number (nameJob job slice index.scheduled.toList).run = _
      rw [nameJob_eq]
      exact settle_program now number job slice n _
  | name id rest =>
    refine ⟨_, rfl, fun n answer _ => ?_⟩
    rcases answer with e | existing
    · cases e with
      | notFound what =>
        show n.settle now number (nameJob job slice rest).run = _
        rw [nameJob_eq]
        exact settle_program now number job slice n _
      | duplicateKey what => rfl
      | poisoned => rfl
      | undecodable reason => rfl
      | other reason => rfl
    · exact settle_compared now number job existing slice rest n
  | insert =>
    refine ⟨_, rfl, fun n answer _ => ?_⟩
    rcases answer with e | _ <;> rfl
  | enter =>
    refine ⟨_, rfl, fun n answer _ => ?_⟩
    rcases answer with e | _ <;> rfl

/-- What is left of the submission of a job that a desk admits or refuses. -/
def Program.admitted (job : Job) (slice : Slice) :
    Except SchedulerError Unit → Program (Except SchedulerError Job)
  | .error e => done (.error e)
  | .ok () => (placeJob job slice).run

theorem Program.settle_submit (job : Job) (n : Node) (active : n.desk.mode ≠ .stopped) :
    n.settle now number (submit job).run =
      (n, admitted job (job.slice n.desk.width) (n.desk.screen job)) := by
  show n.settle now number
    (do
      if n.desk.stopped then throw .stopped
      insist id (job.check n.desk.width)
      _ : Submission Job).run = _
  simp only [Desk.screen, active, false_or]
  by_cases stopped : n.desk.stopped = true
  · rw [if_pos stopped, if_pos stopped]
    rfl
  · rw [if_neg stopped, if_neg stopped]
    cases job.check n.desk.width with
    | error e => rfl
    | ok _ =>
      cases n.desk.registry[job.type]? with
      | none => rfl
      | some registration =>
        show n.settle now number
          (do
            insist .ofJobError (registration.check job)
            placeJob job (job.slice n.desk.width) : Submission Job).run =
          (n, admitted job (job.slice n.desk.width)
            ((registration.check job).mapError fun e => .invalidSubmission (.ofJobError e)))
        cases registration.check job <;> rfl

theorem Program.settle_schedule (job : Job) (n : Node) :
    n.settle now number (schedule job).run =
      (n, admitted job (job.slice n.desk.width) (n.desk.screen job)) := by
  show n.settle now number
    (do
      if n.desk.mode = .stopped then throw .stopped
      submit job : Submission Job).run = _
  by_cases active : n.desk.mode = .stopped
  · rw [if_pos active, Desk.screen, if_pos (.inl active)]
    rfl
  · rw [if_neg active]
    exact settle_submit now number job n active

theorem TurnStage.calls (fromTick : Bool) (s : TurnStage) :
    (s.program fromTick set).Calls set now number (s.op set) fun n answer =>
      let reaction := s.react fromTick set n.desk answer
      (n.work reaction.desk reaction.drained, ofSum (program fromTick set) reaction.next) := by
  cases s with
  | seek =>
    refine ⟨_, rfl, fun n answer _ => ?_⟩
    rcases answer with e | _ | pointer
    · rfl
    · rfl
    · show n.settle now number
        (if n.desk.progress[pointer]? ≠ some .drained then done .stay
          else Program.recheck fromTick pointer) = _
      simp only [react]
      by_cases waits : n.desk.progress[pointer]? ≠ some .drained
      · rw [if_pos waits, if_pos waits]
        rfl
      · rw [if_neg waits, if_neg waits]
        rfl
  | recheck pointer =>
    refine ⟨_, rfl, fun n answer _ => ?_⟩
    rcases answer with e | index
    · rfl
    · show n.settle now number
        (if index.pending ≠ [] then
          (do
            if fromTick then drainSlice pointer
            return Turn.stay)
          else Program.clear pointer) = _
      simp only [react]
      by_cases left : index.pending ≠ []
      · rw [if_pos left, if_pos left]
        cases fromTick <;> rfl
      · rw [if_neg left, if_neg left]
        rfl
  | clear pointer =>
    refine ⟨_, rfl, fun n answer same => ?_⟩
    subst same
    rcases answer with e | _ <;> rfl
  | move pointer =>
    refine ⟨_, rfl, fun n answer same => ?_⟩
    subst same
    rcases answer with e | _ <;> rfl
  | back pointer moved =>
    refine ⟨_, rfl, fun n answer same => ?_⟩
    subst same
    cases moved <;> rfl

/-- Local work goes on to the first call of a turn, if the node still moves the pointer. -/
theorem TurnStage.settle_first (fromTick : Bool) (n : Node) :
    n.settle now number (advanceTurn fromTick) =
      (n, ofSum (program fromTick set) (first n.desk)) := by
  show n.settle now number (if n.desk.stopped then done .stay else seekDrained fromTick) = _
  unfold first
  by_cases stopped : n.desk.stopped
  · rw [if_pos stopped, if_pos stopped]
    rfl
  · rw [if_neg stopped, if_neg stopped]
    rfl

/-- Local work goes on through a walk up to the first slice that the node does not have yet. -/
theorem WalkStage.settle_walk (dispatch : Bool) (advanced : List Slice) (pointer current : Slice)
    (limit : Nat) (slice : Slice) (before : List (Slice × Visit)) (n : Node) :
    n.settle now number ((walk current limit slice before).andThen fun walked =>
      done (reportWalk advanced pointer walked)) =
    (n, ofSum (program dispatch advanced n.desk.settings)
      (walkOn n.desk advanced pointer current limit slice before)) := by
  induction limit generalizing slice before with
  | zero => rfl
  | succ limit ih =>
    simp only [walk, walkOn]
    by_cases past : current < slice
    · rw [if_pos past, if_pos past]
      rfl
    · rw [if_neg past, if_neg past]
      show n.settle now number
        (((if n.desk.progress.contains slice then done Visit.atWork
            else takeSlice (n.desk.advanceLock slice) slice).andThen fun outcome =>
          look.andThen fun desk =>
            walk current limit (slice.next desk.width) (before ++ [(slice, outcome)])).andThen
          fun walked => done (reportWalk advanced pointer walked)) = _
      by_cases has : n.desk.progress.contains slice
      · rw [if_pos has, if_pos has]
        exact ih (slice.next n.desk.width) (before ++ [(slice, .atWork)])
      · rw [if_neg has, if_neg has, andThen_assoc]
        rfl

theorem WalkStage.settle_walkFrom (dispatch : Bool) (advanced : List Slice) (pointer : Slice)
    (n : Node) :
    n.settle now number (walkFrom dispatch advanced pointer) =
    (n, ofSum (program dispatch advanced n.desk.settings)
      (setOut now dispatch n.desk advanced pointer)) := by
  cases dispatch with
  | false => rfl
  | true => exact settle_walk now number true advanced pointer _ _ _ _ n

theorem WalkStage.settle_releaseOn (dispatch : Bool) (advanced : List Slice) (pointer : Slice)
    (stale : List Slice) (n : Node) :
    n.settle now number ((giveBackAll stale).andThen fun _ =>
      walkFrom dispatch advanced pointer) =
    (n, ofSum (program dispatch advanced n.desk.settings)
      (releaseOn now dispatch n.desk advanced pointer stale)) := by
  cases stale with
  | nil => exact settle_walkFrom now number dispatch advanced pointer n
  | cons slice rest =>
    show n.settle now number (((returnLock (n.desk.advanceLock slice) slice).andThen fun _ =>
      giveBackAll rest).andThen fun _ => walkFrom dispatch advanced pointer) = _
    rw [andThen_assoc]
    rfl

theorem WalkStage.settle_tickFrom (dispatch : Bool) (advanced : List Slice)
    (found : Except SchedulerError Slice) (n : Node) :
    n.settle now number (tickFrom dispatch advanced found) =
    (n, ofSum (program dispatch advanced n.desk.settings)
      (fromPointer now dispatch n.desk advanced found)) := by
  cases found with
  | error e => rfl
  | ok pointer =>
    exact settle_releaseOn now number dispatch advanced pointer (n.desk.staleSlices pointer) n

theorem WalkStage.calls (dispatch : Bool) (advanced : List Slice) (s : WalkStage) :
    (s.program dispatch advanced set).Calls set now number (s.op set) fun n answer =>
      let reaction := s.react now dispatch advanced set n.desk answer
      (n.work reaction.desk reaction.drained, ofSum (program dispatch advanced set) reaction.next)
    := by
  cases s with
  | read =>
    refine ⟨_, rfl, fun n answer same => ?_⟩
    subst same
    rcases answer with e | _ | pointer
    · rfl
    · show n.settle now number ((ensurePointer.andThen fun found =>
        done (ensuredPointer found)).andThen (tickFrom dispatch advanced)) = _
      rw [andThen_assoc]
      rfl
    · exact settle_tickFrom now number dispatch advanced (.ok pointer) n
  | ensure s =>
    refine (s.calls set now number).andThen _ |>.congr fun n answer same => ?_
    subst same
    simp only [react, Desk.width]
    cases s.react now n.desk.settings.width answer with
    | inl s' => cases s' <;> rfl
    | inr found => exact settle_tickFrom now number dispatch advanced (ensuredPointer found) n
  | release pointer slice rest =>
    refine ⟨_, rfl, fun n answer same => ?_⟩
    subst same
    exact settle_releaseOn now number dispatch advanced pointer rest
      { n with desk := TurnStage.returned n.desk slice answer }
  | take pointer current limit slice before =>
    refine ⟨_, rfl, fun n answer same => ?_⟩
    subst same
    rcases answer with e | _ | _
    · exact settle_walk now number dispatch advanced pointer current limit _ _
        { n with desk := noted n.desk slice (.error e) }
    · exact settle_walk now number dispatch advanced pointer current limit _ _
        { n with desk := (noted n.desk slice (.ok false)).announce (.tickDeferred slice) }
    · exact settle_walk now number dispatch advanced pointer current limit _ _
        (n.work ((noted n.desk slice (.ok true)).setProgress slice .draining) (some slice))

/-! ## Jobs -/

/-- What is left of a job. -/
def JobNext.program (w : Duration) (slice : Slice) (id : JobId) : JobNext → Program Unit
  | call s => s.program w slice id
  | execute job registration => awaitOutcome slice id job registration
  | spent => done ()

/-- Local work stops at the call of a stage of a job. -/
theorem JobStage.settle_program (w : Duration) (slice : Slice) (id : JobId) (n : Node)
    (s : JobStage) : n.settle now number (s.program w slice id) = (n, s.program w slice id) := by
  cases s <;> rfl

theorem JobStage.settle_loaded (slice : Slice) (id : JobId) (job : Job) (n : Node) :
    n.settle now number (runLoaded slice id job) =
      (n, (loaded n.desk slice job).program n.desk.width slice id) := by
  show n.settle now number
    (if job.slice n.desk.width ≠ slice then passOver slice id else _) = _
  simp only [loaded]
  by_cases elsewhere : job.slice n.desk.width ≠ slice
  · rw [if_pos elsewhere, if_pos elsewhere]
    rfl
  · rw [if_neg elsewhere, if_neg elsewhere]
    cases n.desk.registry[job.type]? <;> rfl

theorem JobStage.calls (slice : Slice) (id : JobId) (s : JobStage) :
    (s.program set.width slice id).Calls set now number (s.op set.width slice id)
      fun n answer =>
        let (events, next) := s.react set.width n.desk slice id answer
        ({ n with desk := n.desk.announceAll events }, next.program set.width slice id) := by
  cases s with
  | load =>
    refine ⟨_, rfl, fun n answer same => ?_⟩
    subst same
    rcases answer with e | job
    · cases e <;> rfl
    · exact settle_loaded now number slice id job n
  | pass => exact ⟨_, rfl, fun n answer _ => rfl⟩
  | deadLetter type => exact ⟨_, rfl, fun n answer _ => rfl⟩
  | activate job registration =>
    refine ⟨_, rfl, fun n answer _ => ?_⟩
    rcases answer with e | _ <;> rfl
  | update job =>
    refine ⟨_, rfl, fun n answer _ => ?_⟩
    rcases answer with e | _ <;> rfl
  | enter job =>
    refine ⟨_, rfl, fun n answer _ => ?_⟩
    rcases answer with e | _ <;> rfl
  | finish job =>
    refine ⟨_, rfl, fun n answer _ => ?_⟩
    rcases answer with e | _ <;> rfl
  | leave job =>
    refine ⟨_, rfl, fun n answer _ => ?_⟩
    rcases answer with e | _ <;> rfl
  | retire id =>
    refine ⟨_, rfl, fun n answer _ => ?_⟩
    rcases answer with e | _ <;> rfl
  | delete id => exact ⟨_, rfl, fun n answer _ => rfl⟩

theorem settle_look {α : Type} (f : Desk → Program α) (n : Node) :
    n.settle now number (look >>= f) = n.settle now number (f n.desk) := rfl

theorem settle_now {α : Type} (f : Instant → Program α) (n : Node) :
    n.settle now number (Program.now >>= f) = n.settle now number (f now) := rfl

theorem JobStage.settle_complete (slice : Slice) (id : JobId) (job : Job) (n : Node) :
    n.settle now number (complete slice job) =
      (n, (completing now n.desk job).program n.desk.width slice id) := by
  unfold complete
  rw [settle_look, settle_now]
  simp only [completing]
  cases job.trigger.next? now n.desk.width <;> rfl

theorem JobStage.settle_conclude (slice : Slice) (id : JobId) (job : Job) (policy : RetryPolicy)
    (o : Outcome) (n : Node) :
    n.settle now number (conclude slice id job policy o) =
      let (events, s) := outcome now n.desk slice id job policy o
      ({ n with desk := n.desk.announceAll events }, s.program n.desk.width slice id) := by
  simp only [outcome, conclude]
  cases o.error? with
  | none =>
    exact settle_complete now number slice id job
      { n with desk := n.desk.announce (.jobCompleted id job.type slice) }
  | some error =>
    simp only [fail]
    cases policy.decide job error with
    | retryAfter delay => rfl
    | terminal =>
      exact settle_complete now number slice id job
        { n with desk := n.desk.announce (.jobFailed job.id job.type slice error.message none) }

/-! ## Shutdowns and drainings -/

theorem TaskStage.calls_givingUp (live : Nat) (lock : HeldLock) (others : List HeldLock) :
    ∃ count : lock.giveUpOp.Result → Nat,
      (givingUp live (lock :: others)).Calls set now number lock.giveUpOp fun n answer =>
        n.settle now number (givingUp (count answer) others) := by
  obtain ⟨name, owner, mode⟩ := lock
  let count (answer : Except StoreError Bool) : Nat :=
    if answer.toOption.getD false then live + 1 else live
  cases mode <;> exact ⟨count, _, rfl, fun n answer _ => by rcases answer with e | _ | _ <;> rfl⟩

theorem TaskStage.settle_givingUp_cons (live : Nat) (lock : HeldLock) (others : List HeldLock)
    (n : Node) :
    n.settle now number (givingUp live (lock :: others)) = (n, givingUp live (lock :: others)) := by
  obtain ⟨name, owner, mode⟩ := lock
  cases mode <;> rfl

/-- Local work looks at the slices at work, and goes on to wait or to stop moving the pointer. -/
theorem TaskStage.settle_looking (looks : Nat) (n : Node) :
    n.settle now number (looking looks) =
        ({ n with desk := { n.desk with stopped := true } }, giveUpLocks.andThen stopReply) ∨
      ∃ fewer, looks = fewer + 1 ∧ n.settle now number (looking looks) =
        (n, ask (.pause (Duration.ofMillis pollMillis)) fun _ => looking fewer) := by
  cases looks with
  | zero => exact .inl rfl
  | succ fewer =>
    show n.settle now number
      (((if n.openDrains = 0 then done ()
        else (request (.pause (Duration.ofMillis pollMillis))).andThen fun _ =>
          awaitDrains fewer).andThen fun _ => halt).andThen stopReply) = _ ∨ _
    by_cases spent : n.openDrains = 0
    · rw [if_pos spent]
      exact .inl rfl
    · refine .inr ⟨fewer, rfl, ?_⟩
      show n.settle now number
        (((if n.openDrains = 0 then done ()
          else (request (.pause (Duration.ofMillis pollMillis))).andThen fun _ =>
            awaitDrains fewer).andThen fun _ => halt).andThen stopReply) = _
      rw [if_neg spent]
      rfl

/-- A shutdown begins with a refusal, with a wait for the guard, or with a look at the slices at
work after a while. -/
theorem TaskStage.settle_shutdown (n : Node) :
    n.settle now number (Node.carryOut .shutdown) =
        ({ n with desk := { n.desk with mode := .stopped } }, done (Node.dropped .shutdown)) ∨
      n.settle now number (Node.carryOut .shutdown) =
        ({ n with desk := { n.desk with mode := .stopped, stopped := true } },
          giveUpLocks.andThen stopReply) ∨
      ∃ looks, n.settle now number (Node.carryOut .shutdown) =
        ({ n with desk := { n.desk with mode := .stopped } },
          ask (.pause (Duration.ofMillis pollMillis)) fun _ => looking looks) := by
  let stopping : Node := { n with desk := { n.desk with mode := .stopped } }
  let timeout := n.desk.settings.shutdownTimeout
  have settled : n.settle now number (Node.carryOut .shutdown) =
      stopping.settle now number
        ((if stopping.openDrains ≠ 0 then
            if maxTimeoutSeconds ≤ timeout.seconds then done false
            else (awaitDrains (polls timeout)).andThen fun _ => halt
          else halt).andThen stopReply) := rfl
  rw [settled]
  by_cases working : stopping.openDrains ≠ 0
  · rw [if_pos working]
    by_cases far : maxTimeoutSeconds ≤ timeout.seconds
    · rw [if_pos far]
      exact .inl rfl
    · rw [if_neg far]
      rcases settle_looking now number (polls timeout) stopping with halted | ⟨fewer, -, waits⟩
      · exact .inr (.inl halted)
      · exact .inr (.inr ⟨fewer, waits⟩)
  · rw [if_neg working]
    exact .inr (.inl rfl)

/-- Local work takes the locks out of the record, and goes on to give them up if there are any. -/
theorem TaskStage.settle_lettingGo_nil (n : Node) (held : n.desk.held.held = []) :
    n.settle now number lettingGo =
      ({ n with desk := { n.desk with held := .empty }, advancing := false }, done .done) := by
  show Node.settle now number { n with desk := { n.desk with held := .empty } }
    (givingUp 0 n.desk.held.held) = _
  rw [held]
  rfl

theorem TaskStage.settle_lettingGo_cons (n : Node) {lock : HeldLock} {others : List HeldLock}
    (held : n.desk.held.held = lock :: others) :
    n.settle now number lettingGo =
      ({ n with desk := { n.desk with held := .empty } }, givingUp 0 (lock :: others)) := by
  show Node.settle now number { n with desk := { n.desk with held := .empty } }
    (givingUp 0 n.desk.held.held) = _
  rw [held, settle_givingUp_cons]

/-- What is left of the draining of a slice once its jobs have been looked up. -/
def Program.setOff (slice : Slice) (ids : List JobId) : Program Unit :=
  (startJobs slice ids).andThen fun _ => awaitDrain slice

theorem Program.settle_setOff (slice : Slice) (ids : List JobId) (n : Node) :
    n.settle now number (setOff slice ids) = (n, setOff slice ids) := by
  cases ids <;> rfl

theorem Program.setOff_asks (slice : Slice) (ids : List JobId) :
    ∃ r next, setOff slice ids = .ask r next := by
  cases ids <;> exact ⟨_, _, rfl⟩

theorem Program.calls_drain (slice : Slice) :
    (drain slice).Calls set now number (.sliceSets slice) fun n answer =>
      match (answer : Except StoreError SliceSets) with
      | .ok index => (n, setOff slice index.pending)
      | .error _ =>
        ({ n with desk := n.desk.setProgress slice .drained },
          ask (.advance false) (Mover.drain slice).rest) := by
  refine ⟨_, rfl, fun n answer _ => ?_⟩
  rcases answer with e | index
  · rfl
  · exact settle_setOff now number slice index.pending n

end Calls

end SliceScheduler
