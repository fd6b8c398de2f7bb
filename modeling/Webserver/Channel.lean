import Mathlib.Data.Nat.Notation
import Mathlib.Logic.Basic

/-!
# Channels

A channel (`Channel.h`, `Channel.cpp`) is a descriptor with the events it waits
for and those last reported for it, and the callbacks that handle them. Its
callbacks act on the objects around it, so `Channel.handleEvents` is generic in
the state they act on and in how they fail.
-/

namespace Webserver

/-- A file descriptor. -/
abbrev Fd := ℕ

/-- A mask of epoll events. -/
abbrev Mask := BitVec 32

abbrev EPOLLIN : Mask := 0x001
abbrev EPOLLPRI : Mask := 0x002
abbrev EPOLLOUT : Mask := 0x004
abbrev EPOLLERR : Mask := 0x008
abbrev EPOLLHUP : Mask := 0x010
abbrev EPOLLRDHUP : Mask := 0x2000
abbrev EPOLLONESHOT : Mask := 0x40000000
abbrev EPOLLET : Mask := 0x80000000

/-- Sequencing computations that may fail. -/
theorem exists_of_bind_eq_ok {ε α : Type*} {x : Except ε α} {f : α → Except ε α} {b : α}
    (h : x >>= f = .ok b) : ∃ a, x = .ok a ∧ f a = .ok b := by
  cases x with
  | error e => cases h
  | ok a => exact ⟨a, rfl, h⟩

theorem error_or_of_bind_eq_error {ε α : Type*} {x : Except ε α} {f : α → Except ε α} {e : ε}
    (h : x >>= f = .error e) : x = .error e ∨ ∃ a, x = .ok a ∧ f a = .error e := by
  cases x with
  | error e => exact .inl h
  | ok a => exact .inr ⟨a, rfl, h⟩

theorem ok_of_mapError_eq_ok {ε ε' α : Type*} {x : Except ε α} {f : ε → ε'} {a : α}
    (h : x.mapError f = .ok a) : x = .ok a := by
  cases x with
  | error e => cases h
  | ok a' => cases h; rfl

/-- A computation known to succeed, with a property of its result. -/
theorem exists_ok_of_any {ε α : Type*} {x : Except ε α} {p : α → Bool}
    (h : x.toOption.any p = true) : ∃ a, x = .ok a ∧ p a = true := by
  cases x with
  | error e => cases h
  | ok a => exact ⟨a, rfl, h⟩

/-- A mask in which none of some events is reported. -/
theorem and_or_eq_zero {x a b : Mask} (ha : x &&& a = 0) (hb : x &&& b = 0) :
    x &&& (a ||| b) = 0 := by
  rw [BitVec.and_or_distrib_left, ha, hb]
  rfl

/-- Events added to a mask that are not the ones looked for. -/
theorem or_and_of_disjoint {x y m : Mask} (h : y &&& m = 0) : (x ||| y) &&& m = x &&& m := by
  rw [BitVec.and_or_distrib_right, h]
  exact BitVec.or_zero

/-- Events added to a mask that are some of the ones looked for. -/
theorem or_and_of_subset {x y m : Mask} (h : y &&& m ≠ 0) : (x ||| y) &&& m ≠ 0 := by
  rw [BitVec.and_or_distrib_right]
  exact fun hzero => h (BitVec.or_eq_zero_iff.1 hzero).2

/-- A descriptor, the events a poller is to wait for on it, and those it has reported. The
    flag is set while they are handled. -/
structure Channel where
  fd : Fd
  events : Mask
  revents : Mask
  eventHandling : Bool
  deriving DecidableEq

namespace Channel

def setEvents (c : Channel) (evt : Mask) : Channel := { c with events := evt }

def setRevents (c : Channel) (revt : Mask) : Channel := { c with revents := revt }

/-- The callbacks of a channel, on a state `σ` that they may fail to change. -/
structure Callbacks (ε σ : Type*) where
  read : Option (σ → Except ε σ)
  write : Option (σ → Except ε σ)
  close : Option (σ → Except ε σ)
  conn : Option (σ → Except ε σ)
  error : Option (σ → Except ε σ)

/-- Where a channel is found in the state its callbacks act on. -/
structure Place (σ : Type*) where
  get : σ → Channel
  set : Channel → σ → σ

variable {ε σ : Type*}

/-- Calling a callback, if it is set. -/
def call (callback : Option (σ → Except ε σ)) (s : σ) : Except ε σ :=
  match callback with
  | none => .ok s
  | some f => f s

/-- Calling a callback, if one of the events of a mask is reported. -/
def callIf (revents mask : Mask) (callback : Option (σ → Except ε σ)) (s : σ) : Except ε σ :=
  if revents &&& mask ≠ 0 then call callback s else .ok s

@[simp] theorem callIf_none (revents mask : Mask) (s : σ) :
    (callIf revents mask none s : Except ε σ) = .ok s := by
  rw [callIf]
  split <;> rfl

/-- A callback is called, or none of its events is reported. -/
theorem callIf_ok {revents mask : Mask} {f : σ → Except ε σ} {s s' : σ}
    (h : callIf revents mask (some f) s = .ok s') :
    f s = .ok s' ∨ revents &&& mask = 0 ∧ s' = s := by
  rw [callIf] at h
  split at h
  · exact .inl h
  · next hmask =>
    cases h
    exact .inr ⟨not_not.1 hmask, rfl⟩

/-- Dispatches the events reported for the channel to its callbacks. A hang-up
    without input and an error return early, before the connection callback. -/
def handleEvents (at_ : Place σ) (callbacks : Callbacks ε σ) (s : σ) : Except ε σ := do
  let s := at_.set { at_.get s with eventHandling := true } s
  let revents := (at_.get s).revents
  if revents &&& EPOLLHUP ≠ 0 ∧ revents &&& EPOLLIN = 0 then
    call callbacks.close (at_.set ((at_.get s).setEvents 0) s)
  else if revents &&& EPOLLERR ≠ 0 then
    call callbacks.error s
  else
    let s ← callIf revents (EPOLLIN ||| EPOLLPRI ||| EPOLLRDHUP) callbacks.read s
    let s ← callIf revents EPOLLOUT callbacks.write s
    let s ← call callbacks.conn s
    .ok (at_.set { at_.get s with eventHandling := false } s)

/-- The events reported reach the callbacks for them. -/
def Dispatched (revents : Mask) : Prop :=
  ¬(revents &&& EPOLLHUP ≠ 0 ∧ revents &&& EPOLLIN = 0) ∧ revents &&& EPOLLERR = 0

instance (revents : Mask) : Decidable (Dispatched revents) := inferInstanceAs (Decidable (_ ∧ _))

/-- Handling events that reach the callbacks for them. -/
theorem handleEvents_of_dispatched {at_ : Place σ} {callbacks : Callbacks ε σ} {s : σ}
    {revents : Mask}
    (hrevents : (at_.get (at_.set { at_.get s with eventHandling := true } s)).revents = revents)
    (hdispatched : Dispatched revents) :
    handleEvents at_ callbacks s = (do
      let s ← callIf revents (EPOLLIN ||| EPOLLPRI ||| EPOLLRDHUP) callbacks.read
        (at_.set { at_.get s with eventHandling := true } s)
      let s ← callIf revents EPOLLOUT callbacks.write s
      let s ← call callbacks.conn s
      .ok (at_.set { at_.get s with eventHandling := false } s)) := by
  simp only [handleEvents, hrevents]
  rw [if_neg hdispatched.1, if_neg (not_not.2 hdispatched.2)]

/-- Handling a writable event. -/
theorem handleEvents_out {at_ : Place σ} {callbacks : Callbacks ε σ} {s : σ}
    (hrevents :
      (at_.get (at_.set { at_.get s with eventHandling := true } s)).revents = EPOLLOUT) :
    handleEvents at_ callbacks s = (do
      let s ← call callbacks.write (at_.set { at_.get s with eventHandling := true } s)
      let s ← call callbacks.conn s
      .ok (at_.set { at_.get s with eventHandling := false } s)) := by
  simp only [handleEvents, hrevents]
  rw [if_neg (by decide), if_neg (by decide)]
  rfl

/-- What handling events without a failure comes to: an early return, or, if they
    reach the callbacks for them, these in turn. -/
theorem handleEvents_ok {at_ : Place σ} {callbacks : Callbacks ε σ} {s s' : σ} {revents : Mask}
    (hrevents : (at_.get (at_.set { at_.get s with eventHandling := true } s)).revents = revents)
    (h : handleEvents at_ callbacks s = .ok s') :
    let s₀ := at_.set { at_.get s with eventHandling := true } s
    call callbacks.close (at_.set ((at_.get s₀).setEvents 0) s₀) = .ok s' ∨
      call callbacks.error s₀ = .ok s' ∨
      Dispatched revents ∧ ∃ s₁ s₂ s₃,
        callIf revents (EPOLLIN ||| EPOLLPRI ||| EPOLLRDHUP) callbacks.read s₀ = .ok s₁ ∧
        callIf revents EPOLLOUT callbacks.write s₁ = .ok s₂ ∧ call callbacks.conn s₂ = .ok s₃ ∧
        s' = at_.set { at_.get s₃ with eventHandling := false } s₃ := by
  simp only [handleEvents, hrevents] at h
  split at h
  · exact .inl h
  · next hhup =>
    split at h
    · exact .inr (.inl h)
    · next herr =>
      refine .inr (.inr ⟨⟨hhup, not_not.1 herr⟩, ?_⟩)
      obtain ⟨s₁, hread, h⟩ := exists_of_bind_eq_ok h
      obtain ⟨s₂, hwrite, h⟩ := exists_of_bind_eq_ok h
      obtain ⟨s₃, hconn, h⟩ := exists_of_bind_eq_ok h
      cases h
      exact ⟨s₁, s₂, s₃, hread, hwrite, hconn, rfl⟩

end Channel

end Webserver
