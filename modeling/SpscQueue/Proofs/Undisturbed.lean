import SpscQueue.Proofs.Chronicle
import SpscQueue.Proofs.Passage

namespace SpscQueue

universe u

variable {α : Type u} {x y : Exchange α} {q next : Queue α} {items : List α} {role : Role}

open Place (Leads)

namespace Exchange

/-- Where a party stands: at the pause of its call, if it is in the middle of one. -/
def place (x : Exchange α) (role : Role) : Place α role :=
  match x.current role with
  | some paused => paused.pause.place paused.call
  | none => if x.queue.closed role then .gone else .rest

def scene (x : Exchange α) : Scene α := ⟨x.queue, x.place⟩

theorem place_paused {paused : Paused α role} (current : x.current role = some paused) :
    x.place role = paused.pause.place paused.call := by
  unfold place
  rw [current]

theorem place_idle (idle : x.current role = none) :
    x.place role = if x.queue.closed role then .gone else .rest := by
  unfold place
  rw [idle]

theorem place_atRest (idle : x.current role = none) (present : x.queue.closed role = false) :
    x.place role = .rest := by
  rw [place_idle idle, present]
  rfl

theorem place_congr (current : y.current role = x.current role)
    (closed : y.queue.closed role = x.queue.closed role) : y.place role = x.place role := by
  unfold place
  rw [current, closed]

/-- A call whose wait has stopped is carried on by its next accesses. -/
theorem arrive_leads (call : Call α role) {stretch : Stretch α} {here : Place α role}
    (reached : stretch.Reached call q here) (present : stretch.queue.closed role = false) :
    Leads q here ((x.arrive call stretch).turn role).result.toList
      (x.arrive call stretch).exchange.queue ((x.arrive call stretch).exchange.place role) := by
  unfold Stretch.Reached at reached
  cases wait : stretch.wait with
  | ready =>
    rw [wait] at reached
    have finished := reached.trans (finish_leads stretch.queue call)
    have still : (call.finish stretch.queue).1.closed role = false :=
      ((Queue.alike_finish call stretch.queue).closed role).trans present
    simp only [arrive, wait]
    rw [place_atRest (current_withCurrent_self none) (by rwa [withCurrent_queue]),
      withCurrent_queue]
    exact finished
  | gone =>
    rw [wait] at reached
    simp only [arrive, wait]
    rw [place_atRest (current_withCurrent_self none) (by rwa [withCurrent_queue]),
      withCurrent_queue]
    exact reached
  | pausing pause =>
    rw [wait] at reached
    simp only [arrive, wait, Advance.turn]
    rw [place_paused (current_withCurrent_self _), withCurrent_queue,
      parked_eq (current_withCurrent_self _)]
    by_cases parks : pause = .park
    · subst parks
      exact reached
    · have short : (pause == .park) = false := beq_eq_false_iff_ne.mpr parks
      rw [Wait.results, if_neg parks] at reached
      rw [short]
      exact reached

end Exchange

/-- The task that a move sets out on, unless it goes on with a call. -/
def Move.task : (move : Move α) → Option (Task α move.role)
  | start _ call => some (.pursue (.call call))
  | proceed _ => none
  | tryPush item => some (.pursue (.tryPush item))
  | tryPop => some (.pursue .tryPop)
  | flush => some .flush
  | close role => some (.leave role)

namespace Exchange

/-- The place of the first access of a move. -/
def outset (x : Exchange α) (move : Move α) : Place α move.role :=
  match move.task with
  | some task => task.entry
  | none => x.place move.role

theorem start_leads (x : Exchange α) (call : Call α role) (present : x.queue.closed role = false) :
    Leads x.queue (Task.pursue (.call call)).entry ((x.start call).turn role).result.toList
      (x.start call).exchange.queue ((x.start call).exchange.place role) := by
  have alike := (Queue.alike_prepare call x.queue).trans (Queue.alike_await _ role)
  refine arrive_leads call ?_ ((alike.closed role).trans present)
  cases call with
  | push item force => exact await_reached x.queue _
  | pop => exact await_reached x.queue _
  | popBatch => exact (await_reached (x.queue.refresh .consumer) .popBatch).after rfl

theorem proceed_leads (present : x.queue.closed role = false)
    (allowed : x.mayProceed role = true) :
    Leads x.queue (x.place role) ((x.proceed role).turn role).result.toList
      (x.proceed role).exchange.queue ((x.proceed role).exchange.place role) := by
  obtain ⟨busy, awake⟩ := Bool.and_eq_true_iff.mp allowed
  obtain ⟨⟨call, pause⟩, current⟩ := busy_iff.mp busy
  rw [parked_eq current] at awake
  rw [proceed_eq current, place_paused current]
  refine arrive_leads call (resume_reached x.queue call pause ?_)
    (((x.queue.alike_resume role pause).closed role).trans present)
  rintro rfl
  exact awake

theorem rest_leads {here : Place α role} {results : List (Result α)} (resting : x.atRest role = true)
    (alike : Queue.Alike role x.queue next) (leads : Leads x.queue here results next .rest) :
    Leads x.queue here results next ({ x with queue := next }.place role) := by
  obtain ⟨present, idle⟩ := atRest_iff.mp resting
  rwa [place_atRest ((current_withQueue next).trans idle) ((alike.closed role).trans present)]

/-- The accesses of a move, with nothing in between, do what the move says. -/
theorem play_leads {move : Move α} (allowed : x.allows move = true)
    (present : x.queue.closed move.role = false) :
    Leads x.queue (x.outset move) (x.play move).result.toList (x.play move).exchange.queue
      ((x.play move).exchange.place move.role) := by
  cases move with
  | start role call => exact x.start_leads call present
  | proceed role => exact proceed_leads present allowed
  | tryPush item => exact rest_leads allowed (x.queue.alike_tryPush item) (tryPush_leads x.queue item)
  | tryPop => exact rest_leads allowed x.queue.alike_tryPop (tryPop_leads x.queue)
  | flush => exact rest_leads allowed (x.queue.alike_publish .producer) (flush_leads x.queue)
  | close role =>
    have gone : (x.queue.close role).1.closed role = true := by cases role <;> rfl
    have stands : (x.play (.close role)).exchange.place role = .gone :=
      (place_idle ((current_withQueue _).trans (atRest_iff.mp allowed).2)).trans (if_pos gone)
    show Leads x.queue (Task.leave role).entry [] (x.queue.close role).1
      ((x.play (.close role)).exchange.place role)
    rw [stands]
    exact close_leads x.queue role

/-- A move leaves the other party where it stands. -/
theorem play_place_peer (x : Exchange α) (move : Move α) :
    (x.play move).exchange.place move.role.peer = x.place move.role.peer := by
  cases move with
  | start role call =>
    obtain ⟨alike, current⟩ := x.start_beside call
    exact place_congr current (alike.closed _)
  | proceed role =>
    obtain ⟨alike, current⟩ := x.proceed_beside role
    exact place_congr current (alike.closed _)
  | tryPush item => exact place_congr (current_withQueue _) ((x.queue.alike_tryPush item).closed _)
  | tryPop => exact place_congr (current_withQueue _) (x.queue.alike_tryPop.closed _)
  | flush => exact place_congr (current_withQueue _) ((x.queue.alike_publish .producer).closed _)
  | close role => exact place_congr (current_withQueue _) (x.queue.close_closed_peer role)

end Exchange

namespace Scene

variable {s middle last : Scene α} {accesses more : List (Access α)} {results others : List (Result α)}

theorem run_append (first : s.run accesses = some (middle, results))
    (second : middle.run more = some (last, others)) :
    s.run (accesses ++ more) = some (last, results ++ others) := by
  induction accesses generalizing s results with
  | nil =>
    cases first
    exact second
  | cons access accesses ih =>
    unfold run at first
    rw [List.cons_append, run]
    cases made : s.step access with
    | none =>
      rw [made] at first
      cases first
    | some taken =>
      rw [made] at first
      obtain ⟨⟨there, told⟩, rest, same⟩ := Option.map_eq_some_iff.mp first
      cases same
      show Option.map _ (taken.1.run (accesses ++ more)) = _
      rw [ih rest, Option.map_some, List.append_assoc]

theorem run_of_leads {here there : Place α role} (leads : Leads q here results next there)
    (place : (role : Role) → Place α role) :
    ∃ n, Scene.run ⟨q, Function.update place role here⟩ (List.replicate n (.go role)) =
      some (⟨next, Function.update place role there⟩, results) := by
  induction leads with
  | stay q here => exact ⟨0, rfl⟩
  | @go q last here final stride results made _ ih =>
    obtain ⟨n, rest⟩ := ih
    have step : Scene.step ⟨q, Function.update place role here⟩ (.go role) =
        some (⟨stride.queue, Function.update place role stride.place⟩, stride.result) := by
      unfold Scene.step
      dsimp only
      rw [Function.update_self, made, Option.map_some, absorb]
      dsimp only
      rw [Function.update_idem]
    refine ⟨n + 1, ?_⟩
    rw [List.replicate_succ, run, step]
    show Option.map _ (Scene.run ⟨stride.queue, Function.update place role stride.place⟩ _) = _
    rw [rest]
    rfl

end Scene

namespace Exchange

/-- The accesses of a move. -/
def accesses (move : Move α) (n : Nat) : List (Access α) :=
  move.task.toList.map (.enter move.role) ++ List.replicate n (.go move.role)

theorem scene_outset {move : Move α} (allowed : x.allows move = true) :
    x.scene.run (move.task.toList.map (.enter move.role)) =
      some (⟨x.queue, Function.update x.place move.role (x.outset move)⟩, []) := by
  have enters {role : Role} (task : Task α role) (rests : x.atRest role = true) :
      x.scene.run [.enter role task] =
        some (⟨x.queue, Function.update x.place role task.entry⟩, []) := by
    obtain ⟨present, idle⟩ := atRest_iff.mp rests
    have resting : x.scene.place role = .rest := place_atRest idle present
    simp only [Scene.run, Scene.step, resting, Scene.absorb, Option.map_some, Option.toList_none,
      List.append_nil]
    rfl
  cases move with
  | proceed role =>
    show some (x.scene, []) = _
    exact congrArg (fun place => some ((⟨x.queue, place⟩ : Scene α), []))
      (Function.update_eq_self role x.place).symm
  | start role call => exact enters _ allowed
  | tryPush item => exact enters _ allowed
  | tryPop => exact enters _ allowed
  | flush => exact enters _ allowed
  | close role => exact enters _ allowed

theorem play_scene (move : Move α) :
    (x.play move).exchange.scene =
      ⟨(x.play move).exchange.queue,
        Function.update x.place move.role ((x.play move).exchange.place move.role)⟩ := by
  unfold scene
  congr 1
  funext role
  rcases move.role.eq_or_eq_peer role with rfl | rfl
  · rw [Function.update_self]
  · rw [Function.update_of_ne (by cases move.role <;> decide), x.play_place_peer move]

/-- A move is what its party does if it makes its accesses without being disturbed. -/
theorem Sound.play_undisturbed (sound : x.Sound items) {move : Move α}
    (allowed : x.allows move = true) :
    ∃ n, x.scene.run (accesses move n) =
      some ((x.play move).exchange.scene, (x.play move).result.toList) := by
  obtain ⟨n, run⟩ := Scene.run_of_leads (play_leads allowed (sound.mover_present allowed)) x.place
  refine ⟨n, ?_⟩
  rw [play_scene]
  exact Scene.run_append (scene_outset allowed) run

/-- Whatever the parties do one move at a time, they can do one access at a time, with the same
results. -/
theorem Sound.run_undisturbed {moves : List (Move α)} {results : List (Result α)}
    (sound : x.Sound items) (run : x.Runs moves results y) :
    ∃ accesses, x.scene.run accesses = some (y.scene, results) := by
  induction run generalizing items with
  | rest => exact ⟨[], rfl⟩
  | next allowed _ ih =>
    obtain ⟨left, soundNow, _⟩ := sound.play allowed
    obtain ⟨n, first⟩ := sound.play_undisturbed allowed
    obtain ⟨more, second⟩ := ih soundNow
    exact ⟨_, Scene.run_append first second⟩

/-- What can be reached from a new queue one move at a time can be reached one access at a time. -/
theorem runs_undisturbed {settings : Settings} {fresh : Queue α} {moves : List (Move α)}
    {results : List (Result α)} (opened : Queue.ofSettings settings = .ok fresh)
    (run : (ofQueue fresh).Runs moves results y) :
    ∃ accesses, (Scene.ofQueue fresh).run accesses = some (y.scene, results) := by
  have begins : (ofQueue fresh).scene = Scene.ofQueue fresh := by
    unfold scene Scene.ofQueue
    congr 1
    funext role
    exact place_atRest (by cases role <;> rfl) (Session.ofSettings_open opened role)
  rw [← begins]
  exact (sound_ofQueue (Queue.ofSettings_carries opened)).run_undisturbed run

end Exchange

end SpscQueue
