import GroupConsumer.Loop
import GroupConsumer.Proofs.Run.Publishes

/-!
# Talking to the collaborators

When the managers are polled or the network is driven, the collaborators can do what they like with what
is theirs: the script, the calls on record, the clock, and the slots that they have answered with.
`Converses s t` says that nothing else has changed from `s` to `t`. Every part of a round and of the
closing that only talks to them comes to this.
-/

namespace GroupConsumer

namespace Session

/-- A collaborator has answered with the slot. -/
def HasAnswer (s : Session) (i : SlotId) : Prop := ∃ f ∈ s.futures.toList, f.2 = i

/-- The collaborators are talked to: slots that they have answered with are worked on, and else only the
script, the clock and the calls on record change. -/
structure Converses (s t : Session) : Prop where
  worksOn : s.WorksOn s.HasAnswer t
  subscription : t.subscription = s.subscription
  background : t.background = s.background
  metrics : t.metrics = s.metrics
  futures : t.futures = s.futures

variable {s t u : Session}

theorem Converses.refl (s : Session) : s.Converses s := ⟨.refl s _, rfl, rfl, rfl, rfl⟩

theorem Converses.trans (h : s.Converses t) (h' : t.Converses u) : s.Converses u where
  worksOn := by
    refine h.worksOn.trans (h'.worksOn.mono fun i hi => ?_)
    rwa [HasAnswer, h.futures] at hi
  subscription := h'.subscription.trans h.subscription
  background := h'.background.trans h.background
  metrics := h'.metrics.trans h.metrics
  futures := h'.futures.trans h.futures

theorem Converses.spares (h : s.Converses t) : s.Spares t where
  toPublishes := publishes_of_slots h.worksOn.size h.worksOn.keeps h.background
  tally := by rw [tally, h.metrics, tally]

/-- A change of the script, the clock and the calls alone. -/
theorem converses_of_talk (s : Session) (script : Script) (clock : Int64) (calls : Array Call) :
    s.Converses { s with script, clock, calls } :=
  ⟨worksOn_of_slots _ rfl, rfl, rfl, rfl, rfl⟩

theorem converses_record (s : Session) (c : Call) : s.Converses (s.record c) :=
  converses_of_talk s _ _ _

/-- What a collaborator does of itself it does to what is its own. -/
theorem converses_stir (s : Session) (x : Stir) : s.Converses (s.stir x) := by
  cases x with
  | complete k o =>
    simp only [stir]
    split
    · rename_i m i hk
      have hw : s.WorksOn s.HasAnswer (s.complete i o) := by
        refine (worksOn_complete s i o).mono fun j hj => ⟨(m, i), mem_futures.2 ⟨k, hk⟩, ?_⟩
        exact hj.symm
      exact ⟨hw, rfl, rfl, rfl, rfl⟩
    · exact .refl s
  | advance ms | hear os | learn version topics => exact converses_of_talk s _ _ _

theorem converses_stirAll (s : Session) (xs : List Stir) : s.Converses (s.stirAll xs) := by
  induction xs generalizing s with
  | nil => exact .refl s
  | cons x xs ih => exact (converses_stir s x).trans (ih (s.stir x))

theorem converses_pollManager (s : Session) (now : Int64) (m : Manager) :
    s.Converses (s.pollManager now m).1 :=
  (converses_of_talk s _ _ _).trans (converses_stirAll _ _)

theorem converses_pollManagerOnClose (s : Session) (now : Int64) (m : Manager) :
    s.Converses (s.pollManagerOnClose now m).1 :=
  (converses_of_talk s _ _ _).trans (converses_stirAll _ _)

theorem converses_pollNetwork (s : Session) (now : Int64) : s.Converses (s.pollNetwork now).1 :=
  (converses_of_talk s _ _ _).trans (converses_stirAll _ _)

end Session

namespace BackgroundLoop

/-- Managers are polled one after the other. -/
theorem converses_pollManagers {poll : Session → Manager → Session × PollResult}
    (hpoll : ∀ (s : Session) (m : Manager), s.Converses (poll s m).1) (s : Session) (ms : List Manager) :
    s.Converses (pollManagers poll s ms).1 := by
  induction ms generalizing s with
  | nil => exact .refl s
  | cons m ms ih =>
    unfold pollManagers
    split
    · exact (hpoll s m).trans (ih (poll s m).1)
    · exact ih s

theorem converses_send (s : Session) (results : List PollResult) : s.Converses (send s results) := by
  unfold send
  generalize results.flatMap (·.requests) = rs
  induction rs generalizing s with
  | nil => exact .refl s
  | cons r rs ih => exact (Session.converses_record s (.send r)).trans (ih (s.record (.send r)))

theorem converses_flushNetwork (n : Nat) (s : Session) : s.Converses (flushNetwork n s) := by
  induction n generalizing s with
  | zero => exact .refl s
  | succ n ih =>
    have hpoll := s.converses_pollNetwork s.clock
    unfold flushNetwork
    simp only
    split
    · exact hpoll.trans (ih (s.pollNetwork s.clock).1)
    · exact hpoll

end BackgroundLoop

end GroupConsumer
