import Hotswap.Machine.Run
import Mathlib

/-!
# Contracts of computations

A contract says of a computation what every result of it is like and what every error of it is
like, from whatever state it starts. Running out of fuel is no error and meets every contract.

* `Machine.Meets E Q m`: results of `m` are as `Q` says, errors as `E` says.
* `FrameAction.Stays d o E Q x`: the same of a computation in a frame that runs the descriptor `d`
  and stands at the offset `o`; moreover such a computation leaves the frame with `d` and at `o`.

The rules follow the monads: one for a result, one for an error, one for going on (`Meets.bind`,
`Stays.bind`), and one for each operation of a frame that instructions are made of. A contract is
thus read off the text of a computation, without looking at states.
-/

namespace Hotswap

variable {α β : Type}

/-! ## Going on -/

/-- What goes on after a computation of the machine starts where that ended. -/
theorem Machine.bind_apply (m : Machine α) (k : α → Machine β) (s : State) :
    (m >>= k) s = match m s with
      | (.ok a, s') => k a s'
      | (.error stop, s') => (.error stop, s') := by
  show (ExceptT.bind m k) s = _
  simp only [ExceptT.bind, ExceptT.mk, Bind.bind, StateT.bind]
  rcases m s with ⟨stop | a, s'⟩ <;> rfl

/-- A computation that goes on has a result if both parts have one. -/
theorem Machine.bind_eq_ok {m : Machine α} {k : α → Machine β} {s t : State} {b : β} :
    (m >>= k) s = (.ok b, t) ↔ ∃ a s', m s = (.ok a, s') ∧ k a s' = (.ok b, t) := by
  rw [bind_apply]
  rcases m s with ⟨stop | a, s'⟩
  · exact ⟨nofun, nofun⟩
  · refine ⟨fun h => ⟨a, s', rfl, h⟩, ?_⟩
    rintro ⟨_, _, ⟨⟩, h⟩
    exact h

/-- What goes on after a computation in a frame starts where that ended. -/
theorem FrameAction.bind_apply (x : FrameAction α) (k : α → FrameAction β) (f : Frame)
    (s : State) :
    (x >>= k) f s = match x f s with
      | (.ok (a, f'), s') => k a f' s'
      | (.error stop, s') => (.error stop, s') := by
  show (x f >>= fun r => k r.1 r.2 : Machine (β × Frame)) s = _
  rw [Machine.bind_apply]
  rcases x f s with ⟨stop | ⟨a, f'⟩, s'⟩ <;> rfl

/-- A computation in a frame has a result if both its parts have, one after the other. -/
theorem FrameAction.bind_eq_ok {x : FrameAction α} {k : α → FrameAction β} {f : Frame}
    {s t : State} {r : β × Frame} :
    (x >>= k) f s = (.ok r, t) ↔
      ∃ a f' s', x f s = (.ok (a, f'), s') ∧ k a f' s' = (.ok r, t) := by
  rw [bind_apply]
  rcases x f s with ⟨stop | ⟨a, f'⟩, s'⟩
  · exact ⟨nofun, nofun⟩
  · refine ⟨fun h => ⟨a, f', s', rfl, h⟩, ?_⟩
    rintro ⟨_, _, _, ⟨⟩, h⟩
    exact h

/-- A computation that starts by looking at the state. -/
theorem Machine.get_bind (k : State → Machine α) (s : State) : (get >>= k) s = k s s := rfl

/-- A computation that starts by looking at its frame. -/
theorem FrameAction.get_bind (k : Frame → FrameAction α) (f : Frame) : (get >>= k) f = k f f := rfl

/-- An error of a computation becomes a value, and running out of fuel does not. -/
theorem Machine.attempt_apply (m : Machine α) (s : State) :
    attempt m s = match m s with
      | (.ok a, s') => (.ok (.ok a), s')
      | (.error (.failed e), s') => (.ok (.error e), s')
      | (.error .outOfFuel, s') => (.error .outOfFuel, s') := by
  unfold attempt
  simp only [tryCatch, tryCatchThe, MonadExceptOf.tryCatch, ExceptT.tryCatch, ExceptT.mk,
    Functor.map, ExceptT.map, Bind.bind, StateT.bind]
  rcases m s with ⟨(e | _) | a, s'⟩ <;> rfl

/-! ## Computations of the machine -/

/-- The stop of a computation whose errors are as `E` says. -/
def Stop.Within (E : Error → Prop) : Stop → Prop
  | .failed e => E e
  | .outOfFuel => True

namespace Machine

/-- Every result is as `Q` says and every error as `E` says, whatever the state is. -/
def Meets (E : Error → Prop) (Q : α → Prop) (m : Machine α) : Prop :=
  ∀ s, match (m s).1 with
    | .ok a => Q a
    | .error stop => stop.Within E

variable {E F : Error → Prop} {Q R : α → Prop} {m : Machine α}

/-- Conditions may be weakened. -/
theorem Meets.conseq (h : m.Meets E Q) (hE : ∀ e, E e → F e) (hQ : ∀ a, Q a → R a) :
    m.Meets F R := by
  intro s
  have hs := h s
  split at hs
  · exact hQ _ hs
  · rename_i stop _
    cases stop with
    | failed e => exact hE e hs
    | outOfFuel => trivial

/-- What has a result meets its condition. -/
theorem Meets.pure {a : α} (h : Q a) : (pure a : Machine α).Meets E Q := fun _ => h

/-- So does an error that is allowed. -/
theorem Meets.fail {e : Error} (h : E e) : (Machine.fail e : Machine α).Meets E Q := fun _ => h

/-- So does running out of fuel. -/
theorem Meets.outOfFuel : (throw .outOfFuel : Machine α).Meets E Q := fun _ => trivial

/-- So does reading the state. -/
theorem Meets.get : (get : Machine State).Meets E fun _ => True := fun _ => trivial

/-- So does changing it. -/
theorem Meets.modify (g : State → State) : (modify g : Machine Unit).Meets E fun _ => True :=
  fun _ => trivial

/-- So do two computations one after another. -/
theorem Meets.bind {S : β → Prop} {k : α → Machine β} (hm : m.Meets E Q)
    (hk : ∀ a, Q a → (k a).Meets E S) : (m >>= k).Meets E S := by
  intro s
  have hs := hm s
  rw [bind_apply]
  rcases hms : m s with ⟨stop | a, s'⟩ <;> simp only [hms] at hs
  · exact hs
  · exact hk a hs s'

/-- So does one whose result is not looked at. -/
theorem Meets.discard (hm : m.Meets E Q) : Meets E (fun _ => True) (discard m) :=
  hm.bind fun _ _ => .pure trivial

/-- A computation for each of several values, one after another. -/
theorem Meets.mapM {k : β → Machine α} (hk : ∀ b, (k b).Meets E fun _ => True) (l : List β) :
    Meets E (fun _ => True) (l.mapM k) := by
  induction l with
  | nil =>
    rw [List.mapM_nil]
    exact .pure trivial
  | cons b rest ih =>
    rw [List.mapM_cons]
    exact (hk b).bind fun _ _ => ih.bind fun _ _ => .pure trivial

/-- An action on memory gives what it gives on the memory that it finds. -/
theorem Meets.onMemory {action : StateM Memory α} (h : ∀ memory, Q (action memory).1) :
    (onMemory action).Meets E Q :=
  fun s => h s.memory

/-- A computation whose error is given as a value has no error of its own. -/
theorem Meets.attempt (m : Machine α) : (attempt m).Meets E fun _ => True := by
  intro s
  rw [attempt_apply]
  rcases m s with ⟨(e | _) | a, s'⟩ <;> trivial

end Machine

/-! ## Computations in a frame -/

namespace FrameAction

/-- From a frame with `d` at `o`, every result is as `Q` says and comes with a frame with `d` at
`o`, and every error is as `E` says. -/
def Stays (d : Descriptor) (o : UInt32) (E : Error → Prop) (Q : α → Prop) (x : FrameAction α) :
    Prop :=
  ∀ f : Frame, f.descriptor = d → f.offset = o →
    Machine.Meets E (fun r => Q r.1 ∧ r.2.descriptor = d ∧ r.2.offset = o) (x f)

variable {d : Descriptor} {o : UInt32} {E F : Error → Prop} {Q R : α → Prop} {x : FrameAction α}

/-- Conditions may be weakened in a frame. -/
theorem Stays.conseq (h : Stays d o E Q x) (hE : ∀ e, E e → F e) (hQ : ∀ a, Q a → R a) :
    Stays d o F R x :=
  fun f hd ho => (h f hd ho).conseq hE fun r hr => ⟨hQ r.1 hr.1, hr.2⟩

/-- What has a result stays where it is. -/
theorem Stays.pure {a : α} (h : Q a) : Stays d o E Q (pure a : FrameAction α) :=
  fun _ hd ho _ => ⟨h, hd, ho⟩

/-- So do two computations one after another. -/
theorem Stays.bind {S : β → Prop} {k : α → FrameAction β} (hx : Stays d o E Q x)
    (hk : ∀ a, Q a → Stays d o E S (k a)) : Stays d o E S (x >>= k) := by
  intro f hd ho
  show Machine.Meets E _ (x f >>= fun r => k r.1 r.2 : Machine (β × Frame))
  exact (hx f hd ho).bind fun r hr => hk r.1 hr.1 r.2 hr.2.1 hr.2.2

/-- So does one whose result is changed afterwards. -/
theorem Stays.map {S : β → Prop} {g : α → β} (hx : Stays d o E Q x) (hg : ∀ a, Q a → S (g a)) :
    Stays d o E S (g <$> x) := by
  rw [map_eq_pure_bind]
  exact hx.bind fun a ha => .pure (hg a ha)

/-- So does one whose result is not looked at. -/
theorem Stays.discard (hx : Stays d o E Q x) : Stays d o E (fun _ => True) (discard x) :=
  hx.map fun _ _ => trivial

/-- The frame that is read is where it was. -/
theorem Stays.get : Stays d o E (fun f => f.descriptor = d ∧ f.offset = o) get :=
  fun _ hd ho _ => ⟨⟨hd, ho⟩, hd, ho⟩

/-- A change of the frame is in order if it leaves descriptor and offset alone. -/
theorem Stays.modify {g : Frame → Frame} (hd : ∀ f, (g f).descriptor = f.descriptor)
    (ho : ∀ f, (g f).offset = f.offset) : Stays d o E (fun _ => True) (modify g) :=
  fun f hfd hfo _ => ⟨trivial, (hd f).trans hfd, (ho f).trans hfo⟩

/-- A computation of the machine does not move the frame. -/
theorem Stays.ofMachine {m : Machine α} (h : m.Meets E Q) : Stays d o E Q (ofMachine m) := by
  intro f hd ho
  exact h.bind fun a ha => .pure ⟨ha, hd, ho⟩

/-- Neither does an error that is allowed. -/
theorem Stays.fail {e : Error} (h : E e) : Stays d o E Q (fail e : FrameAction α) :=
  Stays.ofMachine (.fail h)

/-- Neither does a malformed descriptor, if it is reported where the frame is. -/
theorem Stays.malformed {reason : Malformation}
    (h : E (.malformedDescriptor d.name.render o reason)) :
    Stays d o E Q (malformed reason : FrameAction α) := by
  refine Stays.bind Stays.get fun f hf => ?_
  rw [hf.1, hf.2]
  exact Stays.fail h

end FrameAction

end Hotswap
