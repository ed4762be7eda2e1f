import Mathlib.Logic.Function.Basic

/-!
# Promises and their jobs

The promises of ECMAScript, as far as `then`, `catch` and `await` on native promises need
them. A promise is pending, with the reactions that wait for it in order, or it is settled
for good. A reaction to a settled promise is a job, jobs run one at a time in the order
they were queued, and a promise that is resolved with another promise takes a job to
subscribe to it. What a handler does when its job runs is left to the program.
-/

namespace Bartok.Foundation

variable {ν κ ω : Type*}

/-- What runs when a promise settles: a handler of the program, or the resolving functions
of a promise that follows it. -/
inductive Reaction (ν κ : Type*)
  | call (handler : κ)
  | settle (promise : ν)

inductive Promise (ν κ ω : Type*)
  | pending (waiting : List (Reaction ν κ))
  | settled (outcome : ω)

/-- A reaction job, or the job by which a promise follows the one it was resolved with. -/
inductive Job (ν κ ω : Type*)
  | react (reaction : Reaction ν κ) (outcome : ω)
  | follow (promise thenable : ν)

/-- The promises by name, and the queue of jobs. -/
structure Promises (ν κ ω : Type*) where
  get : ν → Promise ν κ ω
  jobs : List (Job ν κ ω)

namespace Promise

def isPending : Promise ν κ ω → Bool
  | pending _ => true
  | settled _ => false

end Promise

namespace Promises

/-- No promise is settled and no job is queued. -/
def initial : Promises ν κ ω := ⟨fun _ => .pending [], []⟩

def queue (h : Promises ν κ ω) (js : List (Job ν κ ω)) : Promises ν κ ω :=
  { h with jobs := h.jobs ++ js }

variable [DecidableEq ν]

/-- Fulfil or reject: nothing happens to a promise that is settled. -/
def settle (h : Promises ν κ ω) (p : ν) (o : ω) : Promises ν κ ω :=
  match h.get p with
  | .pending waiting => queue ⟨Function.update h.get p (.settled o), h.jobs⟩
      (waiting.map fun r => .react r o)
  | .settled _ => h

/-- `PerformPromiseThen`. -/
def subscribe (h : Promises ν κ ω) (p : ν) (r : Reaction ν κ) : Promises ν κ ω :=
  match h.get p with
  | .pending waiting => ⟨Function.update h.get p (.pending (waiting ++ [r])), h.jobs⟩
  | .settled o => h.queue [.react r o]

/-- A promise is resolved with a promise. -/
def resolveWith (h : Promises ν κ ω) (p thenable : ν) : Promises ν κ ω :=
  h.queue [.follow p thenable]

/-- The jobs that are not the program's: a promise settles as the one it follows, or
subscribes to it. -/
def runOwn (h : Promises ν κ ω) : Job ν κ ω → Promises ν κ ω
  | .react (.settle p) o => h.settle p o
  | .react (.call _) _ => h
  | .follow p thenable => h.subscribe thenable (.settle p)

section Lemmas

variable {h : Promises ν κ ω} {p q : ν} {o : ω} {r : Reaction ν κ} {waiting : List (Reaction ν κ)}
  {js : List (Job ν κ ω)}

omit [DecidableEq ν] in
@[simp] theorem get_queue : (h.queue js).get = h.get := rfl

omit [DecidableEq ν] in
@[simp] theorem jobs_queue : (h.queue js).jobs = h.jobs ++ js := rfl

omit [DecidableEq ν] in
@[simp] theorem get_resolveWith : (h.resolveWith p q).get = h.get := rfl

omit [DecidableEq ν] in
@[simp] theorem jobs_resolveWith : (h.resolveWith p q).jobs = h.jobs ++ [.follow p q] := rfl

theorem settle_pending (hp : h.get p = .pending waiting) :
    h.settle p o = ⟨Function.update h.get p (.settled o),
      h.jobs ++ waiting.map fun r => .react r o⟩ := by
  simp [settle, hp, queue]

theorem get_settle_self (hp : h.get p = .pending waiting) : (h.settle p o).get p = .settled o := by
  rw [settle_pending hp]
  exact Function.update_self _ _ _

theorem jobs_settle (hp : h.get p = .pending waiting) :
    (h.settle p o).jobs = h.jobs ++ waiting.map fun r => .react r o := by
  rw [settle_pending hp]

theorem settle_settled {o' : ω} (hp : h.get p = .settled o') : h.settle p o = h := by
  simp [settle, hp]

theorem subscribe_pending (hp : h.get p = .pending waiting) :
    h.subscribe p r = ⟨Function.update h.get p (.pending (waiting ++ [r])), h.jobs⟩ := by
  simp [subscribe, hp]

theorem subscribe_settled (hp : h.get p = .settled o) :
    h.subscribe p r = ⟨h.get, h.jobs ++ [.react r o]⟩ := by
  simp [subscribe, hp, queue]

/-- The other promises are left alone. -/
theorem get_settle_of_ne (hne : q ≠ p) : (h.settle p o).get q = h.get q := by
  unfold settle
  split
  · exact Function.update_of_ne hne _ _
  · rfl

theorem get_subscribe_of_ne (hne : q ≠ p) : (h.subscribe p r).get q = h.get q := by
  unfold subscribe
  split
  · exact Function.update_of_ne hne _ _
  · rfl

end Lemmas

end Promises

end Bartok.Foundation
