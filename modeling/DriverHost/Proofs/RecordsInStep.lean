import DriverHost.Proofs.Answers
import DriverHost.Proofs.LockTurns
import DriverHost.Proofs.TaskRecords

/-!
# Records in step

Once the services are installed, the scheduler's table, the table of task records and the current
record agree wherever code runs: in the boot context between its rounds, and within the turn of
every thread.  The interpreter of boot code reaches no other machines, and every entry point of the
driver is code of the kind that this holds for.

Main results:

- Inductive predicates `Underway` and `Executes`: the machines on which the code of boot and of
  threads runs.
- Theorem `Underway.boot`: where orderly boot code ends, boot code is said to run.
- Theorem `orderly_perform`: the driver's entry points are orderly.
- Theorem `records_follow_scheduler`: table, records and current record agree wherever code runs.
-/

namespace DriverHost.Script

variable {ε α β : Type}

/-! ## Where code runs -/

/-- The machines on which boot code runs, from a first one on: it touches the world and spares
the records, creates a thread, moves to a core, or has a round run. -/
inductive Underway (host : Host ε World) (first : Machine ε World) : Machine ε World → Prop
  | start : Underway host first first
  | acts {machine world} (hunderway : Underway host first machine)
      (hspares : machine.shared.outside.threads.installed = true →
        Spares machine.shared world) : Underway host first (machine.withShared world)
  | creates {machine next entry task} (hunderway : Underway host first machine)
      (hturn : (createThread entry).turn host machine = .returned task next) :
      Underway host first next
  | moves {machine} (hunderway : Underway host first machine) (core : UInt64) :
      Underway host first { machine with scheduler := machine.scheduler.setCore core }
  | rounds {machine next count} (hunderway : Underway host first machine)
      (hround : machine.runOnce host = .ok count next) : Underway host first next

/-- The machines on which the code of a task runs: that of the boot context, or that of a thread
whose turn has come in a round, with what it has left to run. -/
inductive Executes (host : Host ε World) (first : Machine ε World) :
    TaskId → Machine ε World → Prop
  | boot {now} (hunderway : Underway host first now) : Executes host first bootTask now
  | thread {machine reached now : Machine ε World} {upTo given : Nat} {code}
      (hunderway : Underway host first machine) (hupTo : upTo < machine.scheduler.created)
      (hturns : machine.turns host (List.range' 1 upTo) 0 = .ok given reached)
      (hrunnable : reached.scheduler.isRunnable (upTo + 1) = true)
      (hrest : reached.rest? (upTo + 1) = some code)
      (hmoment : Moment host code (reached.switch host (upTo + 1)) now) :
      Executes host first (upTo + 1) now

/-! ## Runs -/

section Runs

variable {body : ε → Coroutine ε World Unit} {host : Host ε World}
  {first machine last now : Machine ε World}

/-- Wherever the boot code runs, the records agree with the scheduler, and the boot context is the
current task. -/
theorem Underway.linked (hunderway : Underway (hostOf body) first machine)
    (hbody : ∀ entry, Orderly (body entry)) (hfirst : Linked first)
    (hcurrent : first.scheduler.current = bootTask) :
    Linked machine ∧ machine.scheduler.current = bootTask := by
  induction hunderway with
  | start => exact ⟨hfirst, hcurrent⟩
  | acts hunderway hspares ih => exact ⟨ih.1.acts (hspares ih.1.installed), ih.2⟩
  | creates hunderway hturn ih =>
    have hcreates := creates_of_turn hturn
    refine ⟨ih.1.creates hbody hcreates, ?_⟩
    rw [hcreates.scheduler]
    exact ih.2
  | moves hunderway core ih => exact ⟨ih.1.moves core, ih.2⟩
  | rounds hunderway hround ih =>
    exact ih.1.turns hbody ih.2 Machine.ne_bootTask_of_mem_range' hround

/-- Wherever the code of a task runs, the records agree with the scheduler, and that task is the
current one. -/
theorem Executes.linked {task : TaskId} (hexecutes : Executes (hostOf body) first task now)
    (hbody : ∀ entry, Orderly (body entry)) (hfirst : Linked first)
    (hcurrent : first.scheduler.current = bootTask) :
    Linked now ∧ now.scheduler.current = task := by
  cases hexecutes with
  | boot hunderway => exact hunderway.linked hbody hfirst hcurrent
  | @thread machine reached _ upTo given code hunderway hupTo hturns hrunnable hrest hmoment =>
    obtain ⟨hlinked, hboot⟩ := hunderway.linked hbody hfirst hcurrent
    obtain ⟨hreached, -⟩ := hlinked.turns hbody hboot Machine.ne_bootTask_of_mem_range' hturns
    exact hmoment.linked hbody (hreached.orderly code (Array.mem_of_getElem? hrest))
      (hreached.switch body (Scheduler.le_created_of_isRunnable hrunnable))

/-! ## The interpreter of boot code -/

/-- A wait that spares the records, with all the rounds that it lets run, keeps boot code underway.
-/
theorem Underway.attemptWithRounds {poll : Scheduler → Action World (Option β)} {value : β}
    {limit : Nat} (hunderway : Underway host first machine)
    (hspares : ∀ scheduler world, world.outside.threads.installed = true →
      Spares world (Coroutine.leftBy (poll scheduler world)))
    (hattempt : machine.attemptWithRounds host poll limit = .ok value last) :
    Underway host first last := by
  induction limit generalizing machine with
  | zero =>
    have hacts := hunderway.acts (hspares machine.scheduler machine.shared)
    rcases Machine.attemptWithRounds_cases hattempt with
      ⟨world, hpoll, rfl⟩ | ⟨world, count, next, behind, hlimit, -⟩
    · rw [hpoll] at hacts
      exact hacts
    · cases hlimit
  | succ limit ih =>
    have hacts := hunderway.acts (hspares machine.scheduler machine.shared)
    rcases Machine.attemptWithRounds_cases hattempt with
      ⟨world, hpoll, rfl⟩ | ⟨world, count, next, behind, hlimit, hpoll, hround, hnext⟩
    · rw [hpoll] at hacts
      exact hacts
    · rw [hpoll] at hacts
      cases hlimit
      exact ih (hacts.rounds hround) hnext

/-- The scheduling loop is rounds, and keeps boot code underway. -/
theorem Underway.run {limit : Nat} (hunderway : Underway host first machine)
    (hrun : machine.run host limit = .ok () last) : Underway host first last := by
  induction limit generalizing machine with
  | zero => cases hrun
  | succ limit ih =>
    obtain ⟨count, reached, hround, rfl | hbehind⟩ := Machine.run_succ_eq_ok hrun
    · exact hunderway.rounds hround
    · exact ih (hunderway.rounds hround) hbehind

/-- Where the first part of boot code would return in its first turn as a thread, the second part
goes on from there. -/
theorem boot_bind_of_returned {code : Coroutine ε World α} {f : α → Coroutine ε World β}
    (limit : Nat) {value : α} (hturn : code.turn host machine = .returned value last) :
    machine.boot host limit (code.bind f) = last.boot host limit (f value) := by
  rw [Machine.boot_bind, Machine.boot_of_returned hturn]

/-- The boot context creates a thread and its record in one go, with no round in between. -/
theorem boot_createThread {entry : ε} {next : TaskId → Coroutine ε World α} {limit : Nat}
    {value : α}
    (hboot : machine.boot host limit ((createThread entry).bind next) = .ok value last) :
    ∃ task claimed, (createThread entry).turn host machine = .returned task claimed ∧
      claimed.boot host limit (next task) = .ok value last := by
  cases hcreate : machine.create host entry with
  | failed cause stopped =>
    obtain ⟨task, made, hmade, -⟩ := Machine.boot_spawn_eq_ok hboot
    rw [hcreate] at hmade
    cases hmade
  | ok task made =>
    have hturn : (createThread entry).turn host machine = .returned task (withClaim made task) := by
      rw [turn_createThread, hcreate]
    rw [boot_bind_of_returned limit hturn] at hboot
    exact ⟨task, _, hturn, hboot⟩

/-- Orderly boot code only ever reaches machines on which boot code is said to run. -/
theorem Underway.boot {code : Coroutine ε World α} (hcode : Orderly code) {limit : Nat}
    {value : α} (hunderway : Underway host first machine)
    (hboot : machine.boot host limit code = .ok value last) : Underway host first last := by
  induction hcode generalizing machine with
  | returns value =>
    cases hboot
    exact hunderway
  | acts hspares hnext ih =>
    obtain ⟨found, reached, hattempt, hbehind⟩ := Machine.boot_attempt_eq_ok hboot
    exact ih found (hunderway.attemptWithRounds hspares hattempt) hbehind
  | yields hnext ih =>
    obtain ⟨count, reached, hround, hbehind⟩ := Machine.boot_pause_eq_ok hboot
    exact ih (hunderway.rounds hround) hbehind
  | creates entry hnext ih =>
    obtain ⟨task, made, hturn, hbehind⟩ := boot_createThread hboot
    exact ih task (hunderway.creates hturn) hbehind
  | moves core hnext ih => exact ih (hunderway.moves core) hboot
  | rounds hnext ih =>
    obtain ⟨count, reached, hround, hbehind⟩ := Machine.boot_round_eq_ok hboot
    exact ih count (hunderway.rounds hround) hbehind
  | drains hnext ih =>
    obtain ⟨reached, hrun, hbehind⟩ := Machine.boot_drain_eq_ok hboot
    exact ih (hunderway.run hrun) hbehind

end Runs

/-! ## The driver's entry points -/

theorem Spares.refl (world : World) : Spares world world :=
  ⟨rfl, rfl, rfl, rfl, fun _ => rfl, fun _ => rfl⟩

/-- What leaves the surroundings of the kernel alone spares the records. -/
theorem Spares.of_outside {before after : World} (houtside : after.outside = before.outside) :
    Spares before after := by
  constructor <;> rw [houtside] <;> intros <;> rfl

/-- A single access that spares the records leaves the code orderly. -/
theorem orderly_act {action : Action World α}
    (hspares : ∀ world, world.outside.threads.installed = true →
      Spares world (Coroutine.leftBy (action world))) :
    Orderly (Coroutine.act action : Coroutine ε World α) := by
  refine .acts (fun _ world hinstalled => ?_) .returns
  have hleft : Coroutine.leftBy ((some <$> action) world) = Coroutine.leftBy (action world) := by
    rw [Coroutine.map_some_apply]
    cases action world <;> rfl
  rw [hleft]
  exact hspares world hinstalled

theorem orderly_look (view : World → α) :
    Orderly (Coroutine.act (look view) : Coroutine ε World α) :=
  orderly_act fun world _ => .refl world

/-- Code whose accesses spare the records is orderly. -/
theorem orderly_of_within {code : Coroutine ε World α} (hcode : code.Within Spares) :
    Orderly code := by
  induction code with
  | done value => exact .returns value
  | attempt poll next ih =>
    exact .acts (fun scheduler world _ => hcode.1 scheduler world) fun value =>
      ih value (hcode.2 value)
  | pause next ih => exact .yields (ih hcode)
  | spawn entry next ih => exact hcode.elim
  | moveTo core next ih => exact hcode.elim
  | round next ih => exact hcode.elim
  | drain next ih => exact hcode.elim

/-- The check for the services changes nothing. -/
theorem orderly_requireServices : Orderly requireServices := by
  refine orderly_act fun world hinstalled => ?_
  rw [if_pos hinstalled]
  exact .refl world

/-- Checking for the services first leaves the code orderly. -/
theorem orderly_serviced {code : Code Reply} (hcode : Orderly code) : Orderly (serviced code) :=
  orderly_requireServices.bind fun _ => hcode

theorem orderly_returnsZero {code : Code Reply} (hcode : Orderly code) :
    Orderly (returnsZero code) :=
  (orderly_serviced hcode).bind fun _ => .returns _

/-- Code on a part of the world that the records are no part of is orderly. -/
theorem orderly_zoom {σ : Type} {view : Coroutine.View World σ}
    (hview : ∀ world part, Spares world (view.set part world)) {code : Coroutine ε σ α}
    (hcode : code.Within fun _ _ => True) : Orderly (code.zoom view) :=
  orderly_of_within (hcode.zoom hview)

/-- The mutexes are kept apart from the records. -/
theorem spares_mutexView {index : Nat} (world : World) (mutex : Mutex) :
    Spares world ((mutexView index).set mutex world) :=
  ⟨rfl, rfl, rfl, rfl, fun _ => rfl, fun _ => rfl⟩

/-- The semaphores are kept apart from the records. -/
theorem spares_semaphoreView {index : Nat} (world : World) (semaphore : Semaphore) :
    Spares world ((semaphoreView index).set semaphore world) :=
  ⟨rfl, rfl, rfl, rfl, fun _ => rfl, fun _ => rfl⟩

/-- The read-write locks are kept apart from the records. -/
theorem spares_readWriteView {index : Nat} (world : World) (lock : ReadWriteLock) :
    Spares world ((readWriteView index).set lock world) :=
  ⟨rfl, rfl, rfl, rfl, fun _ => rfl, fun _ => rfl⟩

theorem within_tryDown :
    (Semaphore.tryDown : Coroutine ε Semaphore Bool).Within fun _ _ => True :=
  ⟨fun _ _ => trivial, fun _ => ⟨fun _ _ => trivial, fun _ => trivial⟩⟩

/-- What is done with a mutex spares the records. -/
theorem orderly_onMutex (index : Nat) {code : Coroutine String Mutex Unit}
    (hcode : code.Within fun _ _ => True) : Orderly (onMutex index code) :=
  (orderly_zoom spares_mutexView hcode).bind fun _ => orderly_look _

/-- What is done with a semaphore spares the records. -/
theorem orderly_onSemaphore (index : Nat) {code : Coroutine String Semaphore Unit}
    (hcode : code.Within fun _ _ => True) : Orderly (onSemaphore index code) :=
  (orderly_zoom spares_semaphoreView hcode).bind fun _ => orderly_look _

/-- What is done with a read-write lock spares the records. -/
theorem orderly_onReadWrite (index : Nat) {code : Coroutine String ReadWriteLock Unit}
    (hcode : code.Within fun _ _ => True) : Orderly (onReadWrite index code) :=
  (orderly_zoom spares_readWriteView hcode).bind fun _ => orderly_look _

/-- A second installation is refused and changes nothing. -/
theorem install_of_installed {world : World}
    (hinstalled : world.outside.threads.installed = true) :
    install world = .ok (.refused .alreadyInstalled) world := by
  simp only [install, KernelThreads.install?, hinstalled, if_true]

/-- An allocation for the driver spares the records if the allocator does. -/
theorem orderly_blockFor {allocate : Action World (Except AllocError UInt64)}
    (hallocate : ∀ world, (Coroutine.leftBy (allocate world)).outside = world.outside) :
    Orderly (blockFor allocate) := by
  refine orderly_requireServices.bind fun _ => .bind (orderly_act fun world _ => ?_) fun _ =>
    .returns _
  apply Spares.of_outside
  have hleft := hallocate world
  change (Coroutine.leftBy (EStateM.bind allocate Kernel.blockOrNull world)).outside = _
  unfold EStateM.bind
  cases hblock : allocate world with
  | error cause reached =>
    rw [hblock] at hleft
    exact hleft
  | ok block reached =>
    rw [hblock] at hleft
    cases block <;> exact hleft

/-- The heap is kept apart from the records. -/
theorem outside_allocate (size : UInt64) (world : World) :
    (Coroutine.leftBy (Kernel.allocate size world)).outside = world.outside := by
  rw [Kernel.allocate]
  cases Heap.allocate world.heap size with
  | error cause => rfl
  | ok allocated => cases allocated <;> rfl

/-- Clearing a block in memory changes nothing of the records. -/
theorem outside_allocateZeroed (size : UInt64) (world : World) :
    (Coroutine.leftBy (Kernel.allocateZeroed size world)).outside = world.outside := by
  rw [Kernel.allocateZeroed]
  cases Heap.allocateZeroed world.heap world.board.device size with
  | error cause => rfl
  | ok allocated => cases allocated <;> rfl

/-- Whatever a driver calls by name is orderly. -/
theorem orderly_perform (index : Nat) (op : EntryOp) : Orderly (op.perform index) := by
  cases op with
  | install =>
    refine orderly_act fun world hinstalled => ?_
    rw [install_of_installed hinstalled]
    exact .refl world
  | current => exact orderly_look _
  | createThread program =>
    exact orderly_requireServices.bind fun _ => .creates program fun _ => orderly_look _
  | wakeUp => exact .returns _
  | setNice => exact .returns _
  | flushSignals => exact .returns _
  | allocate size => exact orderly_blockFor (outside_allocate size)
  | allocateZeroed size => exact orderly_blockFor (outside_allocateZeroed size)
  | free address =>
    by_cases hnull : address ≠ 0
    · have hcode : EntryOp.perform index (.free address) =
          requireServices.bind fun _ => .done .nothing := by
        simp only [EntryOp.perform, if_pos hnull]
        rfl
      rw [hcode]
      exact orderly_requireServices.bind fun _ => .returns _
    · have hcode : EntryOp.perform index (.free address) = .done .nothing := by
        simp only [EntryOp.perform, if_neg hnull]
        rfl
      rw [hcode]
      exact .returns _
  | mutexLock => exact orderly_serviced (orderly_onMutex index Mutex.within_lock)
  | mutexLockInterruptible => exact orderly_returnsZero (orderly_onMutex index Mutex.within_lock)
  | mutexUnlock => exact orderly_onMutex index Mutex.within_unlock
  | down => exact orderly_serviced (orderly_onSemaphore index Semaphore.within_down)
  | downInterruptible =>
    exact orderly_returnsZero (orderly_onSemaphore index Semaphore.within_down)
  | tryDown =>
    exact (orderly_zoom spares_semaphoreView within_tryDown).bind fun _ =>
      (orderly_look _).bind fun _ => .returns _
  | up => exact orderly_onSemaphore index Semaphore.within_up
  | readLock => exact orderly_serviced (orderly_onReadWrite index ReadWriteLock.within_readLock)
  | readUnlock => exact orderly_onReadWrite index ReadWriteLock.within_readUnlock
  | writeLock => exact orderly_serviced (orderly_onReadWrite index ReadWriteLock.within_writeLock)
  | writeUnlock => exact orderly_onReadWrite index ReadWriteLock.within_writeUnlock
  | bug file line => exact orderly_act fun world _ => .refl world
  | assertion condition file line => exact orderly_act fun world _ => .refl world

/-! ## Installation -/

/-- A size can be named unless it is too large to be rounded up to mebibytes. -/
theorem exists_ofSize_iff {size : UInt64} :
    (∃ count, ByteCount.ofSize size = .ok count) ↔ size.toNat + 1048576 < 2 ^ 64 := by
  have hlarge : size ≥ 1048576 ↔ 1048576 ≤ size.toNat := UInt64.le_iff_toNat_le
  have hmebi : (1048576 : UInt64).toNat = 1048576 := rfl
  have hkibi : (1024 : UInt64).toNat = 1024 := rfl
  have hunit : ∀ unitBytes unit, (∃ count, ByteCount.inUnit size unitBytes unit = .ok count) ↔
      size.toNat + unitBytes.toNat < 2 ^ 64 := by
    intro unitBytes unit
    rw [ByteCount.inUnit, addWords, ensureWord]
    have hsize : UInt64.size = 2 ^ 64 := rfl
    by_cases hfits : size.toNat + unitBytes.toNat < UInt64.size
    · rw [if_pos hfits]
      exact iff_of_true ⟨_, rfl⟩ (hsize ▸ hfits)
    · rw [if_neg hfits]
      refine iff_of_false ?_ (hsize ▸ hfits)
      rintro ⟨count, hcount⟩
      cases hcount
  rw [ByteCount.ofSize]
  by_cases hmany : 1048576 ≤ size.toNat
  · rw [if_pos (hlarge.2 hmany), hunit, hmebi]
  · rw [if_neg fun hge => hmany (hlarge.1 hge)]
    refine iff_of_true ?_ (by omega)
    split
    · rw [hunit, hkibi]
      omega
    · exact ⟨_, rfl⟩

/-- The first installation succeeds where the size of the heap can be reported. -/
theorem exists_install {fresh : World} (hfresh : fresh.outside.threads = {})
    (hheap : fresh.heap.remaining.toNat + 1048576 < 2 ^ 64) :
    ∃ installed, install fresh = .ok .nothing installed := by
  obtain ⟨size, hsize⟩ := exists_ofSize_iff.2 hheap
  have hnew : fresh.outside.threads.install? = some _ :=
    congrArg KernelThreads.install? hfresh
  simp only [install, hnew, hsize]
  exact ⟨_, rfl⟩

/-- Installing the services makes the boot context's record the current one. -/
theorem linked_install {fresh installed : World} (hfresh : fresh.outside.threads = {})
    (hinstall : install fresh = .ok .nothing installed) (bootCoreOnly : Bool) :
    Linked ({ shared := installed, scheduler := { bootCoreOnly } } : Machine ε World) := by
  have houtside : installed.outside =
      { fresh.outside with
        threads :=
          { table := ({} : TaskTable).claim bootTask, current := some bootTask, installed := true }
        onSwitch := .taskTable, onTermination := .taskTable } := by
    have hnew : fresh.outside.threads.install? = some
        { table := ({} : TaskTable).claim bootTask, current := some bootTask, installed := true } :=
      congrArg KernelThreads.install? hfresh
    simp only [install, hnew] at hinstall
    cases hsize : ByteCount.ofSize fresh.heap.remaining with
    | error cause => simp [hsize] at hinstall
    | ok size =>
      simp only [hsize, EStateM.Result.ok.injEq, true_and] at hinstall
      rw [← hinstall]
      rfl
  have hrecord : ∀ task, installed.outside.threads.table.record task =
      if task = bootTask then { pid := 0 } else {} := by
    intro task
    rw [houtside]
    rfl
  have hended : ∀ task, ({ bootCoreOnly } : Scheduler).state? task ≠ some .terminated := by
    intro task
    cases task <;> simp [Scheduler.state?]
  refine ⟨?_, ?_, ?_, ?_, Nat.le_refl _, Nat.zero_le _, fun task => ?_, fun task => ?_, by simp⟩
  · rw [houtside]
  · rw [houtside]
  · rw [houtside]
  · rw [houtside]
  · rw [hrecord]
    by_cases hboot : task = bootTask
    · rw [hboot]
      rfl
    · have hbehind : ¬ task ≤ ({ bootCoreOnly } : Scheduler).created :=
        fun hle => hboot (Nat.le_zero.1 hle)
      rw [if_neg hboot, if_neg hbehind]
  · rw [hrecord, if_neg (hended task)]
    split <;> rfl

/-- The first installation from the boot context, before any thread exists, succeeds if the bytes
left in the heap can be rounded up to mebibytes.  From then on, with orderly code in the boot
context and in all threads, the scheduler's table, the records and the current record agree wherever
code runs; and a second installation is refused there and changes nothing. -/
theorem records_follow_scheduler {body : ε → Coroutine ε World Unit}
    (hbody : ∀ entry, Orderly (body entry)) {fresh : World}
    (hfresh : fresh.outside.threads = {})
    (hheap : fresh.heap.remaining.toNat + 1048576 < 2 ^ 64) :
    ∃ installed, install fresh = .ok .nothing installed ∧
      ∀ (bootCoreOnly : Bool) (task : TaskId) (now : Machine ε World),
        Executes (hostOf body) { shared := installed, scheduler := { bootCoreOnly } } task now →
        now.scheduler.current = task ∧ Agrees now ∧
          install now.shared = .ok (.refused .alreadyInstalled) now.shared := by
  obtain ⟨installed, hinstall⟩ := exists_install hfresh hheap
  refine ⟨installed, hinstall, fun bootCoreOnly task now hexecutes => ?_⟩
  obtain ⟨hlinked, hcurrent⟩ :=
    hexecutes.linked hbody (linked_install hfresh hinstall bootCoreOnly) rfl
  exact ⟨hcurrent, hlinked.agrees, install_of_installed hlinked.installed⟩

/-- Threads that create one of a second kind and return, and threads that give the processor up
once. -/
def startingBody : Bool → Coroutine Bool World Unit
  | true => (createThread false).bind fun _ => .done ()
  | false => .pause (.done ())

/-- The world before anything was installed. -/
def freshWorld : World where
  board := { device := Memory.zeroed }
  heap := Heap.ofRange 0x2000000 0x2100000
  interrupts := { base := 0x3f00b200 }
  outside := { timer := { base := 0x3f003000 } }

/-- Boot creates a thread, which creates another one and returns in the first round; in the
second round the other one runs, and finds the first one ended. -/
theorem records_follow_starting_threads :
    ∃ (installed : World) (now : Machine Bool World),
      install freshWorld = .ok .nothing installed ∧
      Executes (hostOf startingBody) { shared := installed } 2 now ∧
      now.scheduler.current = 2 ∧ now.scheduler.created = 2 ∧
      now.scheduler.state? 1 = some .terminated ∧ Agrees now ∧
      install now.shared = .ok (.refused .alreadyInstalled) now.shared := by
  have hbody : ∀ entry, Orderly (startingBody entry) := by
    intro entry
    cases entry with
    | true => exact .creates false fun _ => .returns ()
    | false => exact .yields (.returns ())
  have hfresh : freshWorld.outside.threads = {} := rfl
  obtain ⟨installed, hinstall, hall⟩ := records_follow_scheduler hbody hfresh (by decide)
  obtain ⟨found, one, two, reached, hfound, hone, htwo, hcreated, hreached, hrunnable, hrest,
      hstill, hended⟩ : ∃ installed one two reached,
        install freshWorld = .ok .nothing installed ∧
        (createThread true).turn (hostOf startingBody) { shared := installed } =
          .returned 1 one ∧
        one.runOnce (hostOf startingBody) = .ok 1 two ∧
        two.scheduler.created = 2 ∧
        two.turns (hostOf startingBody) (List.range' 1 1) 0 = .ok 0 reached ∧
        reached.scheduler.isRunnable 2 = true ∧
        reached.rest? 2 = some (.pause (.done ())) ∧
        reached.scheduler.created = 2 ∧
        reached.scheduler.state? 1 = some .terminated :=
    ⟨_, _, _, _, rfl, rfl, rfl, rfl, rfl, rfl, rfl, rfl, rfl⟩
  cases hfound.symm.trans hinstall
  have hunderway : Underway (hostOf startingBody) { shared := installed } two :=
    (Underway.start.creates hone).rounds htwo
  have hexecutes : Executes (hostOf startingBody) { shared := installed } 2
      (reached.switch (hostOf startingBody) 2) :=
    .thread hunderway (hcreated ▸ Nat.lt_succ_self 1) hreached hrunnable hrest .here
  obtain ⟨hcurrent, hagrees, hagain⟩ := hall false 2 _ hexecutes
  exact ⟨installed, _, hinstall, hexecutes, hcurrent, hstill,
    (Scheduler.state?_switch _ _ _).trans hended, hagrees, hagain⟩

end DriverHost.Script
