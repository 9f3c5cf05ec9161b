import SpscQueue.Proofs.Drawing

namespace SpscQueue

universe u

variable {α : Type u} {q next mid : Queue α} {x : Exchange α} {items added : List α}

namespace Queue

/-- What a move of the producer does to the rest of the queue: nothing, as long as it looks or waits, or
it shows all its items, as it does before it parks, or it puts an item in, or it leaves. -/
inductive Offers (q : Queue α) (items : List α) : List α → Queue α → Prop
  | waits {next : Queue α} : next.outward .producer = q.outward .producer → Offers q items [] next
  | shows {mid next : Queue α} : mid.outward .producer = q.outward .producer → mid.Carries items →
      next.outward .producer = mid.flush.outward .producer → Offers q items [] next
  | writes {mid : Queue α} (item : α) (force : Bool) : mid.outward .producer = q.outward .producer →
      mid.Carries items → mid.ready .producer = true →
      Offers q items [item] (mid.put item force)
  | leaves : Offers q items [] (q.close .producer).1

theorem Carries.enrol_offers (carries : mid.Carries items)
    (same : mid.outward .producer = q.outward .producer) :
    q.Offers items [] (mid.enrol .producer).queue := by
  rw [enrol_producer_queue]
  refine .shows ?_ (carries.watch (mid.threshold .producer) .producer) (outward_refresh _ .producer)
  rw [outward_watch, same]

/-! What the consumer can rely on. -/

theorem shown_of_outward (same : next.outward .producer = q.outward .producer) :
    next.shown = q.shown := congrArg (·.shown) same

theorem watches_of_outward (same : next.outward .producer = q.outward .producer) :
    next.Watches .consumer ↔ q.Watches .consumer := iff_of_eq (congrArg (·.Watches .consumer) same)

theorem regards_of_outward (same : next.outward .producer = q.outward .producer) :
    Regards .producer q next where
  signalled := (congrArg (·.signalled .consumer) same).trans
  watches asked := Or.inr ((watches_of_outward same).mpr asked)
  ready := congrArg (·.ready .consumer) same
  closed := congrArg (·.closed .consumer) same
  leaves gone := Or.inl ((congrArg (·.closed .producer) same).symm.trans gone)

namespace Offers

theorem regards (offers : q.Offers items added next) (carries : q.Carries items) :
    Regards .producer q next := by
  cases offers with
  | waits same => exact regards_of_outward same
  | shows same carried shows =>
    exact ((regards_of_outward same).trans carried.regards_flush).trans (regards_of_outward shows)
  | writes item force same carried space =>
    exact (regards_of_outward same).trans (carried.regards_put space item force)
  | leaves => exact carries.regards_close .producer

/-- What has been shown stays so. -/
theorem shown_le (offers : q.Offers items added next) (carries : q.Carries items) :
    q.shown ≤ next.shown := by
  have most := carries.shown_le
  cases offers with
  | waits same => exact Nat.le_of_eq (shown_of_outward same).symm
  | shows same carried shows =>
    rw [shown_of_outward shows, carried.flush_shown]
    exact most
  | writes item force same carried space =>
    rw [← shown_of_outward same] at most ⊢
    rw [carried.put_shown space]
    split
    · exact Nat.le_add_right_of_le most
    · exact Nat.le_refl _
  | leaves =>
    rw [show (q.close .producer).1.shown = q.flush.shown from rfl, carries.flush_shown]
    exact most

end Offers

end Queue

namespace Exchange

theorem arrive_offers (call : Call α .producer) {stretch : Stretch α}
    (keeps : stretch.Keeps .producer x.queue items) (offers : x.queue.Offers items [] stretch.queue)
    (same : stretch.wait = .ready → stretch.queue.outward .producer = x.queue.outward .producer) :
    x.queue.Offers items ((x.arrive call stretch).turn .producer).accepted
      (x.arrive call stretch).exchange.queue := by
  cases wait : stretch.wait with
  | ready =>
    cases call with
    | push item force =>
      simp only [Exchange.arrive, wait, Advance.turn, Turn.accepted, Option.toList_some,
        withCurrent_queue, Call.finish, keeps.carries.accept_eq (keeps.ready wait), Prod.map_apply, id_eq]
      exact .writes item force (same wait) keeps.carries (keeps.ready wait)
  | gone =>
    have silent : ((x.arrive call stretch).turn .producer).accepted = [] := by
      cases call
      simp only [Exchange.arrive, wait, Advance.turn, Turn.accepted]
      rfl
    rw [silent]
    simp only [Exchange.arrive, wait, withCurrent_queue]
    exact offers
  | pausing pause =>
    have silent : ((x.arrive call stretch).turn .producer).accepted = [] := by
      simp only [Exchange.arrive, wait, Advance.turn, Turn.accepted]
      split <;> rfl
    rw [silent]
    simp only [Exchange.arrive, wait, withCurrent_queue]
    exact offers

/-- Whatever the producer does, the rest of the queue can tell no more of it. -/
theorem Sound.play_offers (sound : x.Sound items) {move : Move α} (allowed : x.allows move = true)
    (own : move.role = .producer) :
    x.queue.Offers items (x.play move).accepted (x.play move).exchange.queue := by
  have carries := sound.carries
  have looked := x.queue.outward_look .producer
  cases move with
  | start role call =>
    cases own
    have same : ((call.prepare x.queue).await .producer).queue.outward .producer =
        x.queue.outward .producer := by
      rw [Queue.outward_await, Queue.outward_prepare]
    exact arrive_offers call (prepare_keeps carries call) (.waits same) fun _ => same
  | proceed role =>
    cases own
    have busy := (Bool.and_eq_true_iff.mp allowed).1
    obtain ⟨⟨call, pause⟩, current⟩ := busy_iff.mp busy
    have told := sound.told .producer busy
    have keeps := Queue.resume_keeps carries told pause
    simp only [Exchange.play, proceed_eq current]
    rcases x.queue.outward_resume .producer pause with same | ⟨short, parks⟩
    · exact arrive_offers call keeps (.waits same) fun _ => same
    · have fresh : (x.queue.look .producer).refresh .producer = x.queue.look .producer := by
        rw [x.queue.look_eq_refresh short, x.queue.refresh_refresh]
      have stuck : ¬ (x.queue.look .producer).CanMove .producer := by
        rw [x.queue.canMove_look, ← carries.look_ready, short]
        exact Bool.false_ne_true
      obtain ⟨_, wait⟩ := Queue.enrol_keeps (carries.look .producer) fresh stuck (by
        rwa [x.queue.closed_look, x.queue.signalled_look])
      refine arrive_offers call keeps ?_ fun ready => ?_
      · rw [parks]
        exact (carries.look .producer).enrol_offers looked
      · rw [parks, wait] at ready
        cases ready
  | tryPush item =>
    simp only [Exchange.play, Turn.accepted, Option.toList_some]
    rcases Queue.tryPush_cases carries item with ⟨_, made⟩ | ⟨_, _, ready, made⟩ | ⟨_, _, made⟩
    · rw [made]
      exact .waits rfl
    · rw [made]
      exact .writes item true looked (carries.look .producer) ready
    · rw [made]
      exact .waits looked
  | tryPop => cases own
  | flush => exact .shows rfl carries rfl
  | close role =>
    cases own
    exact .leaves

end Exchange

end SpscQueue
