import GroupConsumer.Proofs.Run.Guarded

/-!
# A run takes elementary steps

A member in motion works on its leave and on new slots, and links a request to leave to the slot of
the leave (`motion`). Together with what the other causes do this says that every cause takes
elementary steps, and that the answers that it keeps for a later round are those to lookups of its own
(`Steady.proceeds`). Only what takes the kept answers is no such step; it leaves all slots as they are.
So slots are never lost and outcomes stay, through whole actions (`Steady.worksOn_act`).
-/

namespace GroupConsumer

/-- A leave that goes on or ends is made of elementary steps. -/
theorem Membership.Tends.proceeds {m n : Membership} (h : m.Tends n) (D : Deferral → Prop) :
    m.session.Proceeds (fun _ => True) D n.session := by
  have hmono {k l : Membership} (h : k.KeepsLeave l) :
      k.session.Proceeds (fun _ => True) D l.session :=
    h.steps.mono (fun _ _ => trivial) fun _ => False.elim
  obtain h | ⟨k, r, hk, hn⟩ := h
  · exact hmono h
  · have hend : k.session.Proceeds (fun _ => True) D (k.completeLeave r).session := by
      unfold completeLeave
      split
      · exact Session.proceeds_complete _ trivial _
      · exact .rest
    exact ((hmono hk).trans hend).trans (hmono hn)

namespace Processor

/-- What comes of a cause that sets the member in motion, if there is one. -/
inductive Motion (p : Processor) (c : Cause) (q : Processor) : Prop
  /-- There is no member. -/
  | absent (hc : ∀ e, c ≠ .received e) (hm : p.member = none) (hq : q = p)
  /-- There is no member, so that a request to leave is answered at once. -/
  | answered {e : AppEvent} {t : Ticket} {s : Session} (hc : c = .received e)
      (ht : e.ticket? = some t) (hm : p.member = none) (hqm : q.member = none)
      (hs : p.session.Proceeds (fun _ => False) (fun _ => False) s)
      (hq : q.session = s.complete t.slot (.ok .done))
  /-- The leave of the member, if there is one, goes on or ends. -/
  | tended {x : Member} {m : Membership} (hc : ∀ e, c ≠ .received e) (hm : p.member = some x)
      (h : Membership.Tends ⟨x, p.session⟩ m) (hq : q = p.withMembership m)
  /-- The member is asked to leave, and the request is linked to the leave. -/
  | left {e : AppEvent} {t : Ticket} {m n : Membership} {i : SlotId} (hc : c = .received e)
      (ht : e.ticket? = some t) (hs : m.session = p.session)
      (hl : m.member.leaveSlot = p.leaveSlot?) (h : m.Departs i n)
      (hq : q.session = n.session.chain i t.slot) (hm : q.member = some n.member)

variable {p q : Processor} {x : Member} {c : Cause}

theorem motion_onMember {f : Membership → Step} (hc : ∀ e, c ≠ .received e)
    (h : ∀ m : Membership, m.Tends (f m).membership) : Motion p c (p.onMember f).1 := by
  cases hm : p.member with
  | none =>
    rw [onMember_of_none hm]
    exact .absent hc hm rfl
  | some x =>
    rw [onMember_eq hm]
    exact .tended hc hm (h ⟨x, p.session⟩) rfl

/-- Without a member a request to leave is answered at once. -/
theorem motion_leave_of_none (hm : p.member = none) {e : AppEvent} (he : e.isLeave = true) :
    Motion p (.received e) (p.receive e) := by
  cases e with
  | unsubscribe t =>
    let s := (({ p with evaluated := none } : Processor).withSubscription (·.unsubscribe)).session
    show Motion p _ (p.unsubscribe t)
    rw [unsubscribe_of_none hm]
    exact .answered (s := s) rfl rfl hm hm (Session.proceeds_of_slots _ _ rfl rfl) rfl
  | leaveOnClose t =>
    show Motion p _ (p.leaveOnClose t)
    rw [leaveOnClose_of_none hm]
    exact .answered rfl rfl hm hm .rest rfl
  | _ => cases he

/-- A cause that is a trigger for the member is a motion. -/
theorem Steady.motion (hp : p.Steady) {t : Trigger} (hc : c.trigger? p = some t) :
    Motion p c (p.undergo c) := by
  have ht := Cause.eq_of_trigger? hc
  cases t with
  | polled =>
    obtain rfl : c = .polled := ht
    exact motion_onMember (by simp) fun m => (Membership.keepsLeave_onPoll m).tends
  | heard o =>
    obtain rfl : c = .heard o := ht
    exact motion_onMember (by simp) fun m => Membership.tends_onHeartbeat m o
  | advanced commits now =>
    obtain ⟨rfl, -⟩ := ht
    exact motion_onMember (by simp) fun m => Membership.tends_advanceOnce m _ now
  | left =>
    obtain ⟨e, rfl⟩ := ht
    have he : e.isLeave = true := by
      cases e with
      | unsubscribe | leaveOnClose => rfl
      | _ => cases hc
    cases hm : p.member with
    | none => exact motion_leave_of_none hm he
    | some x =>
      obtain ⟨t, y, q, hte, hy, hqs, hqm, hq⟩ := receive_leave hm he
      have hly : y.leaveSlot = p.leaveSlot? :=
        (Member.leaveSlot_of_closing hy).trans (leaveSlot?_eq hm).symm
      have hd := Membership.departs_leave (m := ⟨y, p.session⟩) ((hp x hm).coherent.of_closing hy)
      refine .left rfl hte (m := ⟨y, p.session⟩) rfl hly hd ?_ ?_
      · show (p.receive e).session = _
        rw [hq, ← hqs]
        rfl
      · show (p.receive e).member = _
        rw [hq]
        exact hqm

/-- A motion is made of elementary steps. -/
theorem Motion.proceeds (h : Motion p c q) (D : Deferral → Prop) :
    p.session.Proceeds (fun _ => True) D q.session := by
  have hmono {s t : Session} (h : s.Proceeds (fun _ => False) (fun _ => False) t) :
      s.Proceeds (fun _ => True) D t := h.mono (fun _ => False.elim) fun _ => False.elim
  cases h with
  | absent _ _ hq =>
    rw [hq]
    exact .rest
  | answered _ _ _ _ hs hq =>
    rw [hq]
    exact (hmono hs).trans (Session.proceeds_complete _ trivial _)
  | tended _ _ ht hq =>
    rw [hq]
    exact ht.proceeds D
  | left _ _ hs _ h hq =>
    rw [hq, ← hs]
    exact (hmono h.proceeds).trans (Session.proceeds_chain _ trivial _)

/-- Every cause takes elementary steps, for the lookups that it makes, unless it takes what lookups
have left. -/
theorem Steady.proceeds (hp : p.Steady) (hl : c ≠ .lookups) :
    p.session.Proceeds (fun _ => True) (· ∈ c.deferrals) (p.undergo c).session := by
  cases hc : c.trigger? p with
  | none => exact Session.Proceeds.mono (proceeds_undergo hc hl) (fun _ _ => trivial) fun _ => id
  | some t => exact (hp.motion hc).proceeds _

/-- No slot is lost, and outcomes stay. -/
theorem Steady.worksOn_undergo (hp : p.Steady) (c : Cause) :
    p.session.WorksOn (fun _ => True) (p.undergo c).session := by
  by_cases hl : c = .lookups
  · subst hl
    exact Session.worksOn_takeDeferred p.session _
  · exact (hp.proceeds hl).worksOn

theorem Steady.follow (hp : p.Steady) (cs : List Cause) : (p.follow cs).Steady := by
  induction cs generalizing p with
  | nil => exact hp
  | cons c cs ih => exact ih (hp.undergo c)

theorem Steady.worksOn_follow (hp : p.Steady) (cs : List Cause) :
    p.session.WorksOn (fun _ => True) (p.follow cs).session := by
  induction cs generalizing p with
  | nil => exact .refl _ _
  | cons c cs ih => exact (hp.worksOn_undergo c).trans (ih (hp.undergo c))

theorem Steady.act (hp : p.Steady) (a : Action) : (p.act a).Steady := by
  rw [← hp.follow_causes a]
  exact hp.follow _

/-- No slot is lost in an action, and outcomes stay. -/
theorem Steady.worksOn_act (hp : p.Steady) (a : Action) :
    p.session.WorksOn (fun _ => True) (p.act a).session := by
  rw [← hp.follow_causes a]
  exact hp.worksOn_follow _

end Processor

end GroupConsumer
