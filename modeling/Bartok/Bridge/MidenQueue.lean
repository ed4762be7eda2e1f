import Bartok.Foundation.Promise
import Bartok.Foundation.Turns
import Mathlib.Order.Nat

/-!
# The queue of the miden binaries

The binaries share one sqlite store and must not run side by side, so `runMiden` hangs
every run on the one before: `next = midenQueue.then(() => run(..))`, and `midenQueue` goes
on as `next.catch(() => {})`. Here are these promises and their jobs, with calls coming in
at any time and the events of the processes in any order, and what the chain comes to: a
queue that serves one call at a time, in turn, whatever became of the calls before.
-/

namespace Bartok.Bridge

open Foundation

/-- `midenQueue` after `k` calls, what the call `k` returned, and the promise of its `run`. -/
inductive MidenName
  | tail (k : ℕ)
  | next (k : ℕ)
  | child (k : ℕ)
deriving DecidableEq

/-- The handlers of a call: what starts its run, `() => {}`, and the caller that awaits. -/
inductive MidenHandler (τ : Type*)
  | start (k : ℕ) (task : τ)
  | swallow (k : ℕ)
  | awaiting (k : ℕ)

/-- What becomes of the `spawn` of a run: a process, an `error` event later on, or an
exception, which rejects the promise of the run. -/
inductive Launch (ε : Type*)
  | runs
  | fails
  | throws (e : ε)

/-- The `ChildProcess` of a run. One that is `gone` may still emit events. -/
inductive Child
  | absent
  | alive
  | gone
deriving DecidableEq

/-- How a promise settles; `none` is `undefined`. -/
abbrev RunOutcome (ρ ε : Type*) := Except ε (Option ρ)

structure MidenQueue (τ ρ ε : Type*) where
  promises : Promises MidenName (MidenHandler τ) (RunOutcome ρ ε)
  calls : ℕ
  child : ℕ → Child

namespace MidenQueue

variable {τ ρ ε : Type*}

/-- `let midenQueue = Promise.resolve()`. -/
def start : MidenQueue τ ρ ε := ⟨Promises.initial.settle (.tail 0) (.ok none), 0, fun _ => .absent⟩

/-- `runMiden`, and the caller that awaits what it returns. -/
def runMiden (q : MidenQueue τ ρ ε) (task : τ) : MidenQueue τ ρ ε :=
  { q with
    promises := ((q.promises.subscribe (.tail q.calls) (.call (.start q.calls task))).subscribe
      (.next q.calls) (.call (.swallow q.calls))).subscribe (.next q.calls)
      (.call (.awaiting q.calls))
    calls := q.calls + 1 }

/-- The handler of `midenQueue.then` calls `run`, and `next` follows its promise. -/
def launchRun (q : MidenQueue τ ρ ε) (k : ℕ) (task : τ) :
    Launch ε → MidenQueue τ ρ ε × List (Turn τ (RunOutcome ρ ε))
  | .runs => (⟨q.promises.resolveWith (.next k) (.child k), q.calls,
      Function.update q.child k .alive⟩, [.started k task])
  | .fails => (⟨q.promises.resolveWith (.next k) (.child k), q.calls,
      Function.update q.child k .gone⟩, [.started k task])
  | .throws e => (⟨(q.promises.settle (.child k) (.error e)).resolveWith (.next k) (.child k),
      q.calls, q.child⟩, [.started k task, .ended k (.error e)])

/-- `next.catch(() => {})` settles: a value passes, an error becomes `undefined`. -/
def caught : RunOutcome ρ ε → RunOutcome ρ ε
  | .ok v => .ok v
  | .error _ => .ok none

def runJob (launch : ℕ → Launch ε) (q : MidenQueue τ ρ ε) :
    Job MidenName (MidenHandler τ) (RunOutcome ρ ε) →
      MidenQueue τ ρ ε × List (Turn τ (RunOutcome ρ ε))
  | .react (.call (.start k task)) (.ok _) => q.launchRun k task (launch k)
  -- `then` has no handler for an error, and passes it on
  | .react (.call (.start k _)) (.error e) =>
      ({ q with promises := q.promises.settle (.next k) (.error e) }, [])
  | .react (.call (.swallow k)) o =>
      ({ q with promises := q.promises.settle (.tail (k + 1)) (caught o) }, [])
  | .react (.call (.awaiting k)) o => (q, [.answered k o])
  | job => ({ q with promises := q.promises.runOwn job }, [])

/-- `resolve({ code, out })` of a run. The first of the `close` and `error` events counts. -/
def resolveRun (q : MidenQueue τ ρ ε) (k : ℕ) (r : ρ) :
    MidenQueue τ ρ ε × List (Turn τ (RunOutcome ρ ε)) :=
  ({ q with promises := q.promises.settle (.child k) (.ok (some r)) },
    if (q.promises.get (.child k)).isPending then [.ended k (.ok (some r))] else [])

/-- What happens next: a call, the next job, or an event of a process. -/
inductive Act (τ ρ : Type*)
  | call (task : τ)
  | job
  | close (k : ℕ) (r : ρ)
  | error (k : ℕ) (r : ρ)

def step (launch : ℕ → Launch ε) (q : MidenQueue τ ρ ε) :
    Act τ ρ → Option (MidenQueue τ ρ ε × List (Turn τ (RunOutcome ρ ε)))
  | .call task => some (q.runMiden task, [.called task])
  | .job =>
      match q.promises.jobs with
      | [] => none
      | job :: jobs => some (runJob launch { q with promises := ⟨q.promises.get, jobs⟩ } job)
  | .close k r =>
      if q.child k = .absent then none
      else some ({ q with child := Function.update q.child k .gone }.resolveRun k r)
  | .error k r => if q.child k = .absent then none else some (q.resolveRun k r)

/-! ## Where the queue stands -/

/-- Of the first call whose successor may not start yet. -/
inductive Stage (ρ ε : Type*)
  /-- It has not started; the caller before it may still have to be told. -/
  | ready (last : Option (ℕ × RunOutcome ρ ε))
  /-- `run` was called, and `next` has yet to subscribe to its promise. -/
  | launched (outcome : Option (RunOutcome ρ ε))
  | running
  /-- The run has ended, and `next` is about to settle. -/
  | passing (outcome : RunOutcome ρ ε)
  /-- `next` has settled, and the tail of the queue is about to. -/
  | passed (outcome : RunOutcome ρ ε)

namespace Stage

def started : Stage ρ ε → ℕ
  | ready _ => 0
  | _ => 1

def ended : Stage ρ ε → ℕ
  | passing _ | passed _ | launched (some _) => 1
  | _ => 0

/-- The outcomes that no caller was told. -/
def untold : Stage ρ ε → List (RunOutcome ρ ε)
  | ready last => (last.map Prod.snd).toList
  | launched outcome => outcome.toList
  | running => []
  | passing o | passed o => [o]

/-- The reactions of a call that waits for its turn. -/
def waiting (k : ℕ) : List (Reaction MidenName (MidenHandler τ)) :=
  [.call (.swallow k), .call (.awaiting k)]

/-- The promise that the call returned. -/
def next (ts : List τ) (m : ℕ) : Stage ρ ε → Promise MidenName (MidenHandler τ) (RunOutcome ρ ε)
  | ready _ => .pending (if m < ts.length then waiting m else [])
  | passed o => .settled o
  | _ => .pending (waiting m)

/-- The promise of its run. -/
def child (m : ℕ) : Stage ρ ε → Promise MidenName (MidenHandler τ) (RunOutcome ρ ε)
  | ready _ | launched none => .pending []
  | running => .pending [.settle (.next m)]
  | launched (some o) | passing o | passed o => .settled o

/-- How many jobs it takes at most to be done with all the calls. -/
def left (calls m : ℕ) : Stage ρ ε → ℕ
  | ready none => 5 * (calls - m)
  | ready (some _) => 5 * (calls - m) + 1
  | launched _ => 5 * (calls - m) - 1
  | running | passing _ => 5 * (calls - m) - 2
  | passed _ => 5 * (calls - m) - 3

/-- All the jobs there are; `v` is what the tail was fulfilled with. -/
def jobs (ts : List τ) (m : ℕ) (v : Option ρ) :
    Stage ρ ε → List (Job MidenName (MidenHandler τ) (RunOutcome ρ ε))
  | ready last => (last.map fun x => Job.react (.call (.awaiting x.1)) x.2).toList ++
      (ts[m]?.map fun t => Job.react (.call (.start m t)) (.ok v)).toList
  | launched _ => [.follow (.next m) (.child m)]
  | running => []
  | passing o => [.react (.settle (.next m)) o]
  | passed o => [.react (.call (.swallow m)) o, .react (.call (.awaiting m)) o]

end Stage

/-- The calls before `m` are done with, the calls behind `m` wait, and `m` is in its stage. -/
structure Standing (q : MidenQueue τ ρ ε) (tr : List (Turn τ (RunOutcome ρ ε))) (m : ℕ)
    (stage : Stage ρ ε) (v : Option ρ) : Prop where
  inTurn : Before Turn.InTurn tr
  calls : q.calls = (Turn.calls tr).length
  room : m + stage.started ≤ (Turn.calls tr).length
  starts : (Turn.starts tr).length = m + stage.started
  ends : (Turn.ends tr).length = m + stage.ended
  untold : Turn.ends tr = Turn.answers tr ++ stage.untold
  last : ∀ x, stage = .ready (some x) → x.1 + 1 = m
  tail : q.promises.get (.tail m) = .settled (.ok v)
  tails : ∀ k, m < k → q.promises.get (.tail k) =
    .pending ((Turn.calls tr)[k]?.map fun t => .call (.start k t)).toList
  next : q.promises.get (.next m) = stage.next (Turn.calls tr) m
  nexts : ∀ k, m < k → q.promises.get (.next k) =
    .pending (if k < (Turn.calls tr).length then Stage.waiting k else [])
  past : ∀ k < m, (q.promises.get (.child k)).isPending = false
  child : q.promises.get (.child m) = stage.child m
  children : ∀ k, m < k → q.promises.get (.child k) = .pending []
  absent : ∀ k, m + stage.started ≤ k → q.child k = .absent
  spawned : stage.started = 1 → stage.ended = 0 → q.child m ≠ .absent
  jobs : q.promises.jobs = stage.jobs (Turn.calls tr) m v

theorem getElem?_concat_of_ne {α : Type*} {l : List α} {a : α} {k : ℕ} (h : k ≠ l.length) :
    (l ++ [a])[k]? = l[k]? := by
  rcases Nat.lt_or_gt_of_ne h with hlt | hgt
  · exact List.getElem?_append_left hlt
  · rw [List.getElem?_eq_none (by simp; omega), List.getElem?_eq_none hgt.le]

section Steps

variable {launch : ℕ → Launch ε} {q : MidenQueue τ ρ ε} {tr : List (Turn τ (RunOutcome ρ ε))}
  {m k : ℕ} {stage : Stage ρ ε} {v : Option ρ} {task : τ} {o : RunOutcome ρ ε}

theorem standing_start : Standing (start : MidenQueue τ ρ ε) [] 0 (.ready none) none := by
  have hstart : (start : MidenQueue τ ρ ε).promises =
      ⟨Function.update (fun _ => .pending []) (.tail 0) (.settled (.ok none)), []⟩ := rfl
  constructor
  case tail => simp [hstart]
  case tails =>
    intro k hk
    simp [hstart, hk.ne', Turn.calls]
  case next => simp [hstart, Stage.next, Turn.calls]
  case nexts => simp [hstart, Turn.calls]
  case child => simp [hstart, Stage.child]
  case children => simp [hstart]
  case jobs => simp [hstart, Stage.jobs, Turn.calls]
  all_goals simp [start, Turn.calls, Turn.starts, Turn.ends, Turn.answers, Stage.started,
    Stage.ended, Stage.untold]

/-! ### A call -/

theorem Standing.ready_of_eq (h : Standing q tr q.calls stage v) : ∃ last, stage = .ready last := by
  have hroom := h.room
  rw [← h.calls] at hroom
  cases stage with
  | ready last => exact ⟨last, rfl⟩
  | _ =>
      simp only [Stage.started] at hroom
      omega

/-- Nobody waits for what a call is about to return. -/
theorem Standing.next_calls (h : Standing q tr m stage v) :
    q.promises.get (.next q.calls) = .pending [] := by
  have hle : m ≤ (Turn.calls tr).length := le_trans (Nat.le_add_right _ _) h.room
  rcases hle.lt_or_eq with hlt | heq
  · rw [h.calls, h.nexts _ hlt, if_neg (lt_irrefl _)]
  · obtain rfl : m = q.calls := heq.trans h.calls.symm
    obtain ⟨last, rfl⟩ := h.ready_of_eq
    rw [h.next]
    simp [Stage.next, h.calls]

@[simp] theorem runMiden_child :
    (q.runMiden task).promises.get (.child k) = q.promises.get (.child k) := by
  simp [runMiden, Promises.get_subscribe_of_ne]

theorem runMiden_tail : (q.runMiden task).promises.get (.tail k) =
    (q.promises.subscribe (.tail q.calls) (.call (.start q.calls task))).get (.tail k) := by
  simp [runMiden, Promises.get_subscribe_of_ne]

/-- The promise of the call has the reactions of one that waits, and there is no job more
than the call's own. -/
theorem runMiden_next (task : τ) (hnext : q.promises.get (.next q.calls) = .pending []) :
    (q.runMiden task).promises.get (.next q.calls) = .pending (Stage.waiting q.calls) ∧
      (q.runMiden task).promises.jobs =
        (q.promises.subscribe (.tail q.calls) (.call (.start q.calls task))).jobs := by
  have hget : (q.promises.subscribe (.tail q.calls) (.call (.start q.calls task))).get
      (.next q.calls) = .pending [] := by
    rw [Promises.get_subscribe_of_ne (by simp), hnext]
  unfold runMiden
  rw [Promises.subscribe_pending hget, Promises.subscribe_pending (Function.update_self _ _ _)]
  simp [Stage.waiting]

theorem runMiden_next_of_ne (hne : k ≠ q.calls) :
    (q.runMiden task).promises.get (.next k) = q.promises.get (.next k) := by
  simp [runMiden, Promises.get_subscribe_of_ne, hne]

/-- Behind a call that is not done with, a call waits; else its run is the next job. -/
theorem Standing.subscribe_tail (h : Standing q tr m stage v) (hle : m ≤ q.calls)
    {r : Reaction MidenName (MidenHandler τ)} :
    q.promises.subscribe (.tail q.calls) r =
      if m < q.calls then
        ⟨Function.update q.promises.get (.tail q.calls) (.pending [r]), q.promises.jobs⟩
      else ⟨q.promises.get, q.promises.jobs ++ [.react r (.ok v)]⟩ := by
  split
  · next hlt =>
      have htail : q.promises.get (.tail q.calls) = .pending [] := by
        rw [h.tails _ hlt, h.calls]
        simp
      exact Promises.subscribe_pending htail
  · next hge =>
      apply Promises.subscribe_settled
      rw [← h.tail, Nat.le_antisymm hle (Nat.le_of_not_lt hge)]

theorem standing_call (h : Standing q tr m stage v) :
    Standing (q.runMiden task) (tr ++ [.called task]) m stage v := by
  have hle : m ≤ q.calls := h.calls ▸ le_trans (Nat.le_add_right _ _) h.room
  have hcalls : Turn.calls (tr ++ [.called task]) = Turn.calls tr ++ [task] := by simp [Turn.calls]
  have hstarts : Turn.starts (tr ++ [.called task]) = Turn.starts tr := by simp [Turn.starts]
  have hends : Turn.ends (tr ++ [.called task]) = Turn.ends tr := by simp [Turn.ends]
  have hanswers : Turn.answers (tr ++ [.called task]) = Turn.answers tr := by simp [Turn.answers]
  obtain ⟨hself, hjobs⟩ := runMiden_next task h.next_calls
  have hnexts : ∀ k, m < k → (q.runMiden task).promises.get (.next k) =
      .pending (if k < (Turn.calls tr ++ [task]).length then Stage.waiting k else []) := by
    intro k hk
    rw [List.length_append, List.length_singleton, ← h.calls]
    rcases eq_or_ne k q.calls with rfl | hne
    · rw [hself, if_pos (Nat.lt_succ_self _)]
    · rw [runMiden_next_of_ne hne, h.nexts k hk, ← h.calls]
      congr 2
      simp only [eq_iff_iff]
      omega
  constructor
  case inTurn => exact before_append.mpr ⟨h.inTurn, by simp [Turn.InTurn]⟩
  case calls => simp [hcalls, ← h.calls, runMiden]
  case room =>
    rw [hcalls, List.length_append]
    exact le_trans h.room (Nat.le_add_right _ _)
  case starts => rw [hstarts, h.starts]
  case ends => rw [hends, h.ends]
  case untold => rw [hends, hanswers, h.untold]
  case last => exact h.last
  case absent => exact h.absent
  case spawned => exact h.spawned
  case past =>
    intro k hk
    rw [runMiden_child]
    exact h.past k hk
  case child => rw [runMiden_child, h.child]
  case children => exact fun k hk => runMiden_child.trans (h.children k hk)
  case nexts =>
    rw [hcalls]
    exact hnexts
  case tail =>
    rw [runMiden_tail, h.subscribe_tail hle]
    split
    · next hlt => simp [hlt.ne, h.tail]
    · exact h.tail
  case tails =>
    intro k hk
    rw [runMiden_tail, h.subscribe_tail hle, hcalls]
    rcases eq_or_ne k q.calls with rfl | hne
    · rw [if_pos hk]
      simp [h.calls]
    · rw [getElem?_concat_of_ne (h.calls ▸ hne), ← h.tails k hk]
      split
      · simp [hne]
      · rfl
  case next =>
    rcases hle.lt_or_eq with hlt | rfl
    · rw [runMiden_next_of_ne hlt.ne, h.next]
      cases stage <;> simp [Stage.next, hcalls, ← h.calls, hlt, Nat.lt_succ_of_lt hlt]
    · obtain ⟨last, rfl⟩ := h.ready_of_eq
      rw [hself]
      simp [Stage.next, hcalls, h.calls]
  case jobs =>
    rw [hjobs, h.subscribe_tail hle, hcalls]
    rcases hle.lt_or_eq with hlt | rfl
    · rw [if_pos hlt]
      show q.promises.jobs = _
      rw [h.jobs]
      cases stage with
      | ready last =>
          rw [Stage.jobs, Stage.jobs, getElem?_concat_of_ne (h.calls ▸ hlt.ne)]
      | _ => rfl
    · obtain ⟨last, rfl⟩ := h.ready_of_eq
      rw [if_neg (lt_irrefl _)]
      show q.promises.jobs ++ _ = _
      rw [h.jobs]
      simp [Stage.jobs, h.calls]

/-! ### A job, or an event of a process -/

/-- The call whose turn it is moves on, and the others stay where they are. -/
theorem Standing.move (h : Standing q tr m stage v) {q' : MidenQueue τ ρ ε}
    (es : List (Turn τ (RunOutcome ρ ε))) {stage' : Stage ρ ε}
    (hturn : Before (fun pre => Turn.InTurn (tr ++ pre)) es) (hcalls : Turn.calls es = [])
    (hstarts : stage.started + (Turn.starts es).length = stage'.started)
    (hends : stage.ended + (Turn.ends es).length = stage'.ended)
    (huntold : stage.untold ++ Turn.ends es = Turn.answers es ++ stage'.untold)
    (hlast : ∀ x, stage' = .ready (some x) → x.1 + 1 = m)
    (hroom : m + stage'.started ≤ (Turn.calls tr).length) (hq : q'.calls = q.calls)
    (hget : ∀ n, n ≠ .next m → n ≠ .child m → q'.promises.get n = q.promises.get n)
    (hnext : q'.promises.get (.next m) = stage'.next (Turn.calls tr) m)
    (hchild : q'.promises.get (.child m) = stage'.child m)
    (hjobs : q'.promises.jobs = stage'.jobs (Turn.calls tr) m v)
    (hothers : ∀ k, m < k → q'.child k = q.child k)
    (habsent : stage'.started = 0 → q'.child m = .absent)
    (hspawned : stage'.started = 1 → stage'.ended = 0 → q'.child m ≠ .absent) :
    Standing q' (tr ++ es) m stage' v := by
  have hsame : Turn.calls (tr ++ es) = Turn.calls tr := by simp [hcalls]
  constructor
  case inTurn => exact before_append.mpr ⟨h.inTurn, hturn⟩
  case calls => rw [hsame, hq, h.calls]
  case room => rwa [hsame]
  case starts => rw [Turn.starts_append, List.length_append, h.starts, Nat.add_assoc, hstarts]
  case ends => rw [Turn.ends_append, List.length_append, h.ends, Nat.add_assoc, hends]
  case untold =>
    rw [Turn.ends_append, Turn.answers_append, h.untold, List.append_assoc, huntold,
      List.append_assoc]
  case last => exact hlast
  case tail => rw [hget _ (by simp) (by simp), h.tail]
  case tails =>
    intro k hk
    rw [hget _ (by simp) (by simp), hsame, h.tails k hk]
  case next => rw [hsame, hnext]
  case nexts =>
    intro k hk
    rw [hget _ (by simpa using hk.ne') (by simp), hsame, h.nexts k hk]
  case past =>
    intro k hk
    rw [hget _ (by simp) (by simpa using hk.ne)]
    exact h.past k hk
  case child => exact hchild
  case children =>
    intro k hk
    rw [hget _ (by simp) (by simpa using hk.ne'), h.children k hk]
  case absent =>
    intro k hk
    have hle : stage.started ≤ stage'.started := hstarts ▸ Nat.le_add_right _ _
    rcases eq_or_ne k m with rfl | hne
    · exact habsent (by omega)
    · rw [hothers k (by omega)]
      exact h.absent k (by omega)
  case spawned => exact hspawned
  case jobs => rw [hsame, hjobs]

/-- The caller before is told. -/
theorem standing_tell {x : ℕ × RunOutcome ρ ε} (h : Standing q tr m (.ready (some x)) v) :
    ∃ jobs, q.promises.jobs = .react (.call (.awaiting x.1)) x.2 :: jobs ∧
      Standing { q with promises := ⟨q.promises.get, jobs⟩ } (tr ++ [.answered x.1 x.2]) m
        (.ready none) v := by
  refine ⟨_, h.jobs, ?_⟩
  have hlen : (Turn.ends tr).length = x.1 + 1 := by
    rw [h.last x rfl]
    exact h.ends
  have huntold : Turn.ends tr = Turn.answers tr ++ [x.2] := h.untold
  have hanswers : x.1 = (Turn.answers tr).length := by
    rw [huntold, List.length_append, List.length_singleton] at hlen
    omega
  have hturn : Turn.InTurn tr (.answered x.1 x.2) := by
    refine ⟨hanswers, ?_⟩
    rw [huntold, hanswers, List.getElem?_append_right (le_refl _), Nat.sub_self]
    rfl
  apply h.move [.answered x.1 x.2]
  case hturn => simpa using hturn
  case hget => exact fun n _ _ => rfl
  case hnext => exact h.next
  case hchild => exact h.child
  case hothers => exact fun _ _ => rfl
  case habsent => exact fun _ => h.absent m (le_refl _)
  case hroom => exact h.room
  all_goals simp [Turn.calls, Turn.starts, Turn.ends, Turn.answers, Stage.started, Stage.ended,
    Stage.untold, Stage.jobs]

/-- The run of the next call is started. -/
theorem standing_launch (launch : ℕ → Launch ε) (h : Standing q tr m (.ready none) v) {t : τ}
    (ht : (Turn.calls tr)[m]? = some t) :
    q.promises.jobs = [.react (.call (.start m t)) (.ok v)] ∧
      ∃ outcome, Standing (launchRun { q with promises := ⟨q.promises.get, []⟩ } m t (launch m)).1
        (tr ++ (launchRun { q with promises := ⟨q.promises.get, []⟩ } m t (launch m)).2) m
        (.launched outcome) v := by
  refine ⟨by rw [h.jobs, Stage.jobs, ht]; rfl, ?_⟩
  have hlt : m < (Turn.calls tr).length := (List.getElem?_eq_some_iff.mp ht).1
  have hnext : q.promises.get (.next m) = .pending (Stage.waiting m) := by
    rw [h.next, Stage.next, if_pos hlt]
  have hchild : q.promises.get (.child m) = .pending [] := h.child
  have hturn : Turn.InTurn tr (.started m t) := ⟨h.starts.symm, ht, h.ends⟩
  cases launch m with
  | runs | fails =>
      refine ⟨none, h.move [.started m t] (by simpa using hturn) rfl rfl rfl ?_ nofun hlt rfl ?_
        hnext hchild rfl ?_ nofun ?_⟩
      · rfl
      · exact fun n _ _ => rfl
      · exact fun k hk => Function.update_of_ne hk.ne' _ _
      · intro _ _
        simp [launchRun]
  | throws e =>
      have hended : Turn.InTurn (tr ++ [.started m t]) (.ended m (.error e)) := by
        constructor
        · rw [Turn.ends_append, List.length_append, h.ends]
          rfl
        · rw [Turn.starts_append, List.length_append, h.starts]
          rfl
      have hjobs := Promises.jobs_settle (h := ⟨q.promises.get, []⟩) (o := .error e) hchild
      refine ⟨some (.error e), h.move [.started m t, .ended m (.error e)]
        (by simpa using ⟨hturn, hended⟩) rfl rfl rfl ?_ nofun hlt rfl ?_ ?_ ?_ ?_ ?_ nofun nofun⟩
      · rfl
      · exact fun n _ hn => Promises.get_settle_of_ne hn
      · exact (Promises.get_settle_of_ne (by simp)).trans hnext
      · exact Promises.get_settle_self hchild
      · exact congrArg (· ++ [Job.follow (.next m) (.child m)]) hjobs
      · exact fun _ _ => rfl

/-- `next` follows the promise of the run. -/
theorem standing_follow {outcome : Option (RunOutcome ρ ε)}
    (h : Standing q tr m (.launched outcome) v) :
    q.promises.jobs = [.follow (.next m) (.child m)] ∧
      Standing ⟨Promises.subscribe ⟨q.promises.get, []⟩ (.child m) (.settle (.next m)), q.calls,
        q.child⟩ tr m (outcome.elim .running .passing) v := by
  refine ⟨h.jobs, ?_⟩
  rw [← List.append_nil tr]
  cases outcome with
  | none =>
      have hsub := Promises.subscribe_pending (h := ⟨q.promises.get, []⟩)
        (r := .settle (.next m)) h.child
      have hget : ∀ n, n ≠ .child m → Function.update q.promises.get (.child m)
          (.pending [.settle (.next m)]) n = q.promises.get n :=
        fun n hn => Function.update_of_ne hn _ _
      rw [hsub]
      refine h.move [] before_nil rfl rfl rfl rfl nofun h.room rfl ?_ ?_ ?_ rfl ?_ nofun h.spawned
      · exact fun n _ hn => hget n hn
      · exact (hget (.next m) nofun).trans h.next
      · exact Function.update_self _ _ _
      · exact fun _ _ => rfl
  | some o =>
      have hsub := Promises.subscribe_settled (h := ⟨q.promises.get, []⟩)
        (r := .settle (.next m)) h.child
      rw [hsub]
      refine h.move [] before_nil rfl rfl rfl ?_ nofun h.room rfl ?_ h.next h.child rfl ?_ nofun
        nofun
      · rfl
      · exact fun _ _ _ => rfl
      · exact fun _ _ => rfl

/-- `next` settles as the run did. -/
theorem standing_pass (h : Standing q tr m (.passing o) v) :
    q.promises.jobs = [.react (.settle (.next m)) o] ∧
      Standing ⟨Promises.settle ⟨q.promises.get, []⟩ (.next m) o, q.calls, q.child⟩ tr m
        (.passed o) v := by
  refine ⟨h.jobs, ?_⟩
  have hsettle := Promises.settle_pending (h := ⟨q.promises.get, []⟩) (o := o) h.next
  have hget : ∀ n, n ≠ .next m → Function.update q.promises.get (.next m) (.settled o) n =
      q.promises.get n := fun n hn => Function.update_of_ne hn _ _
  rw [hsettle, ← List.append_nil tr]
  refine h.move [] before_nil rfl rfl rfl ?_ nofun h.room rfl ?_ ?_ ?_ rfl ?_ nofun nofun
  · rfl
  · exact fun n hn _ => hget n hn
  · exact Function.update_self _ _ _
  · exact (hget (.child m) nofun).trans h.child
  · exact fun _ _ => rfl

theorem caught_eq_ok (o : RunOutcome ρ ε) : ∃ v, caught o = .ok v := by
  cases o with
  | ok v => exact ⟨v, rfl⟩
  | error e => exact ⟨none, rfl⟩

/-- The tail of the queue is fulfilled, whatever became of the run: it is the turn of the
next call. -/
theorem standing_swallow (h : Standing q tr m (.passed o) v) :
    q.promises.jobs = [.react (.call (.swallow m)) o, .react (.call (.awaiting m)) o] ∧
      ∃ v', Standing ⟨Promises.settle ⟨q.promises.get, [.react (.call (.awaiting m)) o]⟩
        (.tail (m + 1)) (caught o), q.calls, q.child⟩ tr (m + 1) (.ready (some (m, o))) v' := by
  refine ⟨h.jobs, ?_⟩
  obtain ⟨v', hv⟩ := caught_eq_ok o
  have hsettle := Promises.settle_pending
    (h := ⟨q.promises.get, [.react (.call (.awaiting m)) o]⟩) (o := caught o)
    (h.tails (m + 1) (Nat.lt_succ_self m))
  have hget : ∀ n, n ≠ .tail (m + 1) → Function.update q.promises.get (.tail (m + 1))
      (.settled (caught o)) n = q.promises.get n := fun n hn => Function.update_of_ne hn _ _
  refine ⟨v', ?_⟩
  rw [hsettle]
  constructor
  case inTurn => exact h.inTurn
  case calls => exact h.calls
  case room => exact h.room
  case starts => exact h.starts
  case ends => exact h.ends
  case untold => exact h.untold
  case last =>
    rintro x heq
    cases heq
    rfl
  case tail => exact (Function.update_self _ _ _).trans (congrArg _ hv)
  case tails =>
    intro k hk
    exact (hget _ (by simpa using hk.ne')).trans (h.tails k (by omega))
  case next => exact (hget (.next (m + 1)) nofun).trans (h.nexts (m + 1) (Nat.lt_succ_self m))
  case nexts => exact fun k hk => (hget (.next k) nofun).trans (h.nexts k (by omega))
  case past =>
    intro k hk
    have hsame := congrArg Promise.isPending (hget (.child k) nofun)
    rcases (Nat.le_of_lt_succ hk).lt_or_eq with hlt | rfl
    · exact hsame.trans (h.past k hlt)
    · exact hsame.trans (congrArg Promise.isPending h.child)
  case child => exact (hget (.child (m + 1)) nofun).trans (h.children (m + 1) (Nat.lt_succ_self m))
  case children => exact fun k hk => (hget (.child k) nofun).trans (h.children k (by omega))
  case absent => exact h.absent
  case spawned => nofun
  case jobs =>
    rw [hv]
    cases hget : (Turn.calls tr)[m + 1]? <;> simp [Stage.jobs, hget]

/-- An event of a process changes nothing once its run has ended. -/
theorem standing_resolve {c : ℕ → Child} {r : ρ} (h : Standing q tr m stage v)
    (hk : q.child k ≠ .absent) (hc : ∀ j, c j = .absent ↔ q.child j = .absent) :
    ∃ stage', Standing (resolveRun ⟨q.promises, q.calls, c⟩ k r).1
      (tr ++ (resolveRun ⟨q.promises, q.calls, c⟩ k r).2) m stage' v := by
  have hle : k < m + stage.started := by
    by_contra hge
    exact hk (h.absent k (Nat.le_of_not_lt hge))
  have habsent : ∀ j, m < j → c j = q.child j := by
    intro j hj
    have hnone : q.child j = .absent := by
      apply h.absent
      cases stage <;> simp only [Stage.started] <;> omega
    rw [hnone, hc, hnone]
  by_cases hpending : (q.promises.get (.child k)).isPending = true
  · -- the run of the call whose turn it is
    obtain rfl : k = m := by
      rcases Nat.lt_trichotomy k m with hlt | heq | hgt
      · rw [h.past k hlt] at hpending
        cases hpending
      · exact heq
      · cases stage <;> simp only [Stage.started] at hle <;> omega
    have hget : ∀ n, n ≠ .child k → (q.promises.settle (.child k) (.ok (some r))).get n =
        q.promises.get n := fun n hn => Promises.get_settle_of_ne hn
    show ∃ stage', Standing ⟨q.promises.settle (.child k) (.ok (some r)), q.calls, c⟩
      (tr ++ if (q.promises.get (.child k)).isPending = true then _ else _) k stage' v
    rw [if_pos hpending]
    cases stage with
    | ready last => exact absurd hle (lt_irrefl k)
    | launched outcome =>
        cases outcome with
        | some o => simp [h.child, Stage.child, Promise.isPending] at hpending
        | none =>
            have hturn : Turn.InTurn tr (.ended k (.ok (some r))) := ⟨h.ends.symm, h.starts⟩
            refine ⟨.launched (some (.ok (some r))), h.move [.ended k (.ok (some r))]
              (by simpa using hturn) rfl rfl rfl rfl nofun h.room rfl ?_ ?_ ?_ ?_ habsent nofun
              nofun⟩
            · exact fun n _ hn => hget n hn
            · exact (hget (.next k) nofun).trans h.next
            · exact Promises.get_settle_self h.child
            · exact (Promises.jobs_settle h.child).trans ((List.append_nil _).trans h.jobs)
    | running =>
        have hturn : Turn.InTurn tr (.ended k (.ok (some r))) := ⟨h.ends.symm, h.starts⟩
        refine ⟨.passing (.ok (some r)), h.move [.ended k (.ok (some r))] (by simpa using hturn)
          rfl rfl rfl rfl nofun h.room rfl ?_ ?_ ?_ ?_ habsent nofun nofun⟩
        · exact fun n _ hn => hget n hn
        · exact (hget (.next k) nofun).trans h.next
        · exact Promises.get_settle_self h.child
        · exact (Promises.jobs_settle h.child).trans (congrArg (· ++ [_]) h.jobs)
    | passing o | passed o => simp [h.child, Stage.child, Promise.isPending] at hpending
  · -- a run that has ended
    obtain ⟨o, ho⟩ : ∃ o, q.promises.get (.child k) = .settled o := by
      cases hget : q.promises.get (.child k) with
      | pending waiting => simp [hget, Promise.isPending] at hpending
      | settled o => exact ⟨o, rfl⟩
    show ∃ stage', Standing ⟨q.promises.settle (.child k) (.ok (some r)), q.calls, c⟩
      (tr ++ if (q.promises.get (.child k)).isPending = true then _ else _) m stage' v
    rw [if_neg hpending, Promises.settle_settled ho]
    refine ⟨stage, h.move [] before_nil rfl rfl rfl ?_ h.last h.room rfl ?_ h.next h.child h.jobs
      habsent ?_ ?_⟩
    · exact (List.append_nil _).trans (List.nil_append _).symm
    · exact fun _ _ _ => rfl
    · exact fun hstarted => (hc m).mpr (h.absent m (by omega))
    · exact fun hstarted hended heq => h.spawned hstarted hended ((hc m).mp heq)

theorem standing_job (h : Standing q tr m stage v)
    {r : MidenQueue τ ρ ε × List (Turn τ (RunOutcome ρ ε))} (hr : step launch q .job = some r) :
    ∃ m' stage' v', Standing r.1 (tr ++ r.2) m' stage' v' ∧ Turn.calls r.2 = [] ∧
      stage'.left (Turn.calls tr).length m' < stage.left (Turn.calls tr).length m := by
  have hroom := h.room
  cases stage with
  | ready last =>
      cases last with
      | some x =>
          obtain ⟨jobs, hjobs, hnext⟩ := standing_tell h
          simp only [step, hjobs, runJob, Option.some.injEq] at hr
          subst hr
          exact ⟨m, _, v, hnext, rfl, Nat.lt_succ_self _⟩
      | none =>
          cases ht : (Turn.calls tr)[m]? with
          | none => simp [step, h.jobs, Stage.jobs, ht] at hr
          | some t =>
              obtain ⟨hjobs, outcome, hnext⟩ := standing_launch launch h ht
              have hlt := (List.getElem?_eq_some_iff.mp ht).1
              simp only [step, hjobs, runJob, Option.some.injEq] at hr
              subst hr
              refine ⟨m, _, v, hnext, ?_, ?_⟩
              · cases launch m <;> rfl
              · simp only [Stage.left]
                omega
  | launched outcome =>
      obtain ⟨hjobs, hnext⟩ := standing_follow h
      simp only [step, hjobs, runJob, Promises.runOwn, Option.some.injEq] at hr
      subst hr
      refine ⟨m, _, v, by simpa using hnext, rfl, ?_⟩
      simp only [Stage.started] at hroom
      cases outcome <;> simp only [Stage.left, Option.elim] <;> omega
  | running => simp [step, h.jobs, Stage.jobs] at hr
  | passing o =>
      obtain ⟨hjobs, hnext⟩ := standing_pass h
      simp only [step, hjobs, runJob, Promises.runOwn, Option.some.injEq] at hr
      subst hr
      refine ⟨m, _, v, by simpa using hnext, rfl, ?_⟩
      simp only [Stage.started] at hroom
      simp only [Stage.left]
      omega
  | passed o =>
      obtain ⟨hjobs, v', hnext⟩ := standing_swallow h
      simp only [step, hjobs, runJob, Option.some.injEq] at hr
      subst hr
      refine ⟨m + 1, _, v', by simpa using hnext, rfl, ?_⟩
      simp only [Stage.started] at hroom
      simp only [Stage.left]
      omega

theorem standing_step (h : Standing q tr m stage v) {a : Act τ ρ}
    {r : MidenQueue τ ρ ε × List (Turn τ (RunOutcome ρ ε))} (hr : step launch q a = some r) :
    ∃ m' stage' v', Standing r.1 (tr ++ r.2) m' stage' v' := by
  cases a with
  | call task =>
      obtain rfl := Option.some.inj hr
      exact ⟨m, stage, v, standing_call h⟩
  | job =>
      obtain ⟨m', stage', v', hnext, -⟩ := standing_job h hr
      exact ⟨m', stage', v', hnext⟩
  | close k r' =>
      by_cases hk : q.child k = .absent
      · simp [step, hk] at hr
      · have hr : some (resolveRun ⟨q.promises, q.calls, Function.update q.child k .gone⟩ k r') =
            some r := by simpa [step, hk] using hr
        obtain rfl := Option.some.inj hr
        obtain ⟨stage', hnext⟩ := standing_resolve h hk (c := Function.update q.child k .gone)
          (r := r') fun j => by
            rw [Function.update_apply]
            split
            · next heq => simp [heq, hk]
            · rfl
        exact ⟨m, stage', v, hnext⟩
  | error k r' =>
      by_cases hk : q.child k = .absent
      · simp [step, hk] at hr
      · have hr : some (q.resolveRun k r') = some r := by simpa [step, hk] using hr
        obtain rfl := Option.some.inj hr
        obtain ⟨stage', hnext⟩ := standing_resolve h hk (r := r') fun _ => Iff.rfl
        exact ⟨m, stage', v, hnext⟩

end Steps

/-! ## Runs -/

section Runs

variable {launch : ℕ → Launch ε} {q : MidenQueue τ ρ ε} {tr : List (Turn τ (RunOutcome ρ ε))}
  {m k : ℕ} {stage : Stage ρ ε} {v : Option ρ}

/-- A process may fail to start, but one that runs is not reported as an error: `kill` works. -/
def Killable (q : MidenQueue τ ρ ε) : Act τ ρ → Prop
  | .error k _ => q.child k ≠ .alive
  | _ => True

instance Killable.decidable (q : MidenQueue τ ρ ε) : ∀ a : Act τ ρ, Decidable (Killable q a)
  | .error k _ => inferInstanceAs (Decidable (q.child k ≠ .alive))
  | .call _ | .job | .close _ _ => isTrue trivial

theorem standing_run {ok : MidenQueue τ ρ ε → Act τ ρ → Prop}
    (h : Trace (lts (step launch) ok) start tr q) : ∃ m stage v, Standing q tr m stage v :=
  h.invariant (I := fun q tr => ∃ m stage v, Standing q tr m stage v)
    ⟨0, _, none, standing_start⟩ fun _ _ _ _ ⟨_, _, _, hs⟩ ⟨_, _, hstep⟩ => standing_step hs hstep

/-- The jobs run out. -/
theorem standing_drain (launch : ℕ → Launch ε) (h : Standing q tr m stage v) :
    ∃ n ≤ stage.left (Turn.calls tr).length m, ∃ q' es m' stage' v',
      exec (step launch) q (List.replicate n .job) = some (q', es) ∧ q'.promises.jobs = [] ∧
        Standing q' (tr ++ es) m' stage' v' ∧ Turn.calls es = [] := by
  induction hleft : stage.left (Turn.calls tr).length m using Nat.strong_induction_on
    generalizing q tr m stage v with
  | _ left ih =>
      cases hstep : step launch q (.job : Act τ ρ) with
      | none =>
          refine ⟨0, Nat.zero_le _, q, [], m, stage, v, rfl, ?_, by simpa using h, rfl⟩
          unfold step at hstep
          dsimp only at hstep
          split at hstep
          · assumption
          · cases hstep
      | some r =>
          obtain ⟨m', stage', v', hnext, hcalls, hlt⟩ := standing_job h hstep
          have hsame : Turn.calls (tr ++ r.2) = Turn.calls tr := by simp [hcalls]
          obtain ⟨n, hn, q', es, m'', stage'', v'', hexec, hjobs, hend, hes⟩ :=
            ih _ (hleft ▸ hlt) hnext (by rw [hsame])
          refine ⟨n + 1, by omega, q', r.2 ++ es, m'', stage'', v'', ?_, hjobs, ?_, ?_⟩
          · rw [List.replicate_succ]
            simp [exec, hstep, hexec]
          · rwa [← List.append_assoc]
          · simp [hcalls, hes]

/-- No job is left only when every caller has been told, and the process of the call whose
turn it is, if any, has not been heard of. -/
theorem Standing.idle (launch : ℕ → Launch ε) (h : Standing q tr m stage v) (hjobs : q.promises.jobs = []) :
    Turn.answers tr = Turn.ends tr ∧
      ((Turn.ends tr).length = (Turn.calls tr).length ∨
        ∀ r, ∃ q', step launch q (.close (Turn.ends tr).length r) =
          some (q', [.ended (Turn.ends tr).length (.ok (some r))])) := by
  have hstage := h.jobs.symm.trans hjobs
  cases stage with
  | ready last =>
      obtain ⟨hlast, hstart⟩ := List.append_eq_nil_iff.mp hstage
      have hnone : last = none := by simpa using hlast
      subst hnone
      refine ⟨by simp [h.untold, Stage.untold], .inl ?_⟩
      have hlen : (Turn.calls tr).length ≤ m := by simpa using hstart
      have hroom : m + 0 ≤ (Turn.calls tr).length := h.room
      rw [h.ends]
      simp only [Stage.ended]
      omega
  | running =>
      have hends : (Turn.ends tr).length = m := h.ends
      have hspawned : q.child m ≠ .absent := h.spawned rfl rfl
      refine ⟨by simp [h.untold, Stage.untold], .inr fun r =>
        ⟨(resolveRun { q with child := Function.update q.child m .gone } m r).1, ?_⟩⟩
      rw [hends]
      simp only [step, if_neg hspawned, resolveRun, h.child, Stage.child, Promise.isPending, if_true]
  | launched | passing | passed => cases hstage

/-- **The queue serves its callers in turn.** With calls coming in at any time and the
processes ending, failing to start or throwing in any order: the runs start in the order
of the calls, each when the runs before it have ended, and each caller is told the outcome
of its own run, once, in the order of the calls. However the runs turned out, a bounded
number of jobs brings the queue to where every outcome has been told, and either every
call has been served or the one whose turn it is waits for its process to close. -/
theorem midenQueue_serves (h : Trace (lts (step launch) fun _ _ => True) start tr q) :
    Before Turn.InTurn tr ∧ Turn.starts tr <+: Turn.calls tr ∧ Turn.answers tr <+: Turn.ends tr ∧
      ∃ n ≤ 5 * (Turn.calls tr).length + 1, ∃ q' es,
        exec (step launch) q (List.replicate n .job) = some (q', es) ∧
          Turn.calls (tr ++ es) = Turn.calls tr ∧
          Turn.answers (tr ++ es) = Turn.ends (tr ++ es) ∧
          ((Turn.ends (tr ++ es)).length = (Turn.calls tr).length ∨
            ∀ r, ∃ q'', step launch q' (.close (Turn.ends (tr ++ es)).length r) =
              some (q'', [.ended (Turn.ends (tr ++ es)).length (.ok (some r))])) := by
  obtain ⟨m, stage, v, hs⟩ := standing_run h
  obtain ⟨hstarts, hanswers, -, -⟩ := Turn.inTurn_run hs.inTurn
  refine ⟨hs.inTurn, hstarts, hanswers, ?_⟩
  obtain ⟨n, hn, q', es, m', stage', v', hexec, hjobs, hend, hcalls⟩ :=
    standing_drain launch hs
  obtain ⟨htold, hserved⟩ := hend.idle launch hjobs
  have hsame : Turn.calls (tr ++ es) = Turn.calls tr := by simp [hcalls]
  refine ⟨n, hn.trans ?_, q', es, hexec, hsame, htold, hsame ▸ hserved⟩
  cases stage with
  | ready last => cases last <;> simp only [Stage.left] <;> omega
  | _ =>
      simp only [Stage.left]
      omega

/-- The `spawn` of the first run throws. -/
def demoLaunch : ℕ → Launch String
  | 0 => .throws "EAGAIN"
  | _ => .runs

def twoCalls : List (Act String ℕ) :=
  [.call "build_escrow", .call "verify_escrow"] ++ List.replicate 7 .job ++
    [.close 1 7, .error 1 8] ++ List.replicate 3 .job

/-- A run that was rejected does not hold up the next. -/
theorem midenQueue_serves_demo : ∃ tr : List (Turn String (RunOutcome ℕ String)),
    Turn.answers tr = [.error "EAGAIN", .ok (some 7)] ∧ Before Turn.InTurn tr := by
  have h := trace_exec (step demoLaunch) (fun _ _ => True) start twoCalls
    (okAlong_of_forall (fun _ _ => trivial) _ _) (by decide)
  exact ⟨_, rfl, (midenQueue_serves h).1⟩

/-- A process that is alive is that of the first run that has not ended. -/
def Sole (q : MidenQueue τ ρ ε) (tr : List (Turn τ (RunOutcome ρ ε))) : Prop :=
  ∀ k, q.child k = .alive → k = (Turn.ends tr).length

/-- Only the handler of `midenQueue.then` starts a process, or ends a run without one. -/
theorem job_cases {r : MidenQueue τ ρ ε × List (Turn τ (RunOutcome ρ ε))}
    (hr : step launch q .job = some r) :
    (r.1.child = q.child ∧ Turn.ends r.2 = [] ∧ Turn.starts r.2 = []) ∨
      ∃ k t o jobs, q.promises.jobs = .react (.call (.start k t)) (.ok o) :: jobs ∧
        r = launchRun { q with promises := ⟨q.promises.get, jobs⟩ } k t (launch k) := by
  unfold step at hr
  dsimp only at hr
  split at hr
  · cases hr
  · next job jobs hjobs =>
      obtain rfl := Option.some.inj hr
      unfold runJob
      split
      · exact .inr ⟨_, _, _, jobs, hjobs, rfl⟩
      all_goals exact .inl ⟨rfl, rfl, rfl⟩

/-- A process is started when no run is under way. -/
theorem Standing.start_job (h : Standing q tr m stage v) {k : ℕ} {t : τ} {o : Option ρ}
    {jobs : List (Job MidenName (MidenHandler τ) (RunOutcome ρ ε))}
    (hjobs : q.promises.jobs = .react (.call (.start k t)) (.ok o) :: jobs) :
    k = (Turn.ends tr).length ∧ q.child k = .absent := by
  have hstage := h.jobs.symm.trans hjobs
  cases stage with
  | ready last =>
      cases last with
      | some x => cases hstage
      | none =>
          have hmem : Job.react (.call (.start k t)) (.ok o) ∈
              ((Turn.calls tr)[m]?.map fun t => Job.react (ν := MidenName)
                (.call (MidenHandler.start m t)) (Except.ok v : RunOutcome ρ ε)).toList := by
            have hall : ((Turn.calls tr)[m]?.map fun t => Job.react (ν := MidenName)
                (.call (MidenHandler.start m t)) (Except.ok v : RunOutcome ρ ε)).toList =
                .react (.call (.start k t)) (.ok o) :: jobs := hstage
            rw [hall]
            exact List.mem_cons_self
          obtain ⟨t', -, heq⟩ : ∃ t', (Turn.calls tr)[m]? = some t' ∧
              Job.react (ν := MidenName) (.call (MidenHandler.start m t'))
                (Except.ok v : RunOutcome ρ ε) = .react (.call (.start k t)) (.ok o) := by
            simpa using hmem
          cases heq
          exact ⟨h.ends.symm, h.absent m (le_refl _)⟩
  | launched | running | passing | passed => cases hstage

theorem sole_resolve (hsole : Sole q tr) {c : ℕ → Child} {r : ρ}
    (hturn : Before Turn.InTurn (tr ++ (resolveRun ⟨q.promises, q.calls, c⟩ k r).2))
    (hc : ∀ j, c j = .alive → q.child j = .alive ∧ j ≠ k) :
    Sole (resolveRun ⟨q.promises, q.calls, c⟩ k r).1
      (tr ++ (resolveRun ⟨q.promises, q.calls, c⟩ k r).2) := by
  intro j hj
  obtain ⟨halive, hne⟩ := hc j hj
  have hlen := hsole j halive
  unfold resolveRun at hturn ⊢
  dsimp only at hturn ⊢
  split at hturn
  · next hpending =>
      have hended : k = (Turn.ends tr).length := by
        simpa using (before_cons.mp (before_append.mp hturn).2).1.1
      exact absurd (hlen.trans hended.symm) hne
  · next hpending =>
      rw [if_neg hpending, List.append_nil]
      exact hlen

theorem sole_step (h : Standing q tr m stage v) (hsole : Sole q tr) {a : Act τ ρ}
    (ha : Killable q a) {r : MidenQueue τ ρ ε × List (Turn τ (RunOutcome ρ ε))}
    (hr : step launch q a = some r) : Sole r.1 (tr ++ r.2) := by
  obtain ⟨m', stage', v', hnext⟩ := standing_step h hr
  have hturn := hnext.inTurn
  cases a with
  | call task =>
      obtain rfl := Option.some.inj hr
      intro k hk
      have hends : Turn.ends (tr ++ [.called task]) = Turn.ends tr := by simp [Turn.ends]
      rw [hends]
      exact hsole k hk
  | job =>
      rcases job_cases hr with ⟨hchild, hends, -⟩ | ⟨k, t, o, jobs, hjobs, rfl⟩
      · intro k hk
        rw [Turn.ends_append, hends, List.append_nil]
        exact hsole k (hchild ▸ hk)
      · obtain ⟨hfirst, hnone⟩ := h.start_job hjobs
        have hothers : ∀ j, q.child j ≠ .alive := by
          intro j hj
          rw [hsole j hj, ← hfirst, hnone] at hj
          cases hj
        intro j hj
        cases hlaunch : launch k with
        | runs =>
            simp only [hlaunch, launchRun, Function.update_apply] at hj
            split at hj
            · next heq =>
                rw [heq, hfirst]
                simp [launchRun, Turn.ends]
            · exact absurd hj (hothers j)
        | fails =>
            simp only [hlaunch, launchRun, Function.update_apply] at hj
            split at hj
            · cases hj
            · exact absurd hj (hothers j)
        | throws e =>
            simp only [hlaunch, launchRun] at hj
            exact absurd hj (hothers j)
  | close k r' =>
      by_cases hk : q.child k = .absent
      · simp [step, hk] at hr
      · have hr : some (resolveRun ⟨q.promises, q.calls, Function.update q.child k .gone⟩ k r') =
            some r := by simpa [step, hk] using hr
        obtain rfl := Option.some.inj hr
        apply sole_resolve hsole hturn
        intro j hj
        rw [Function.update_apply] at hj
        split at hj
        · cases hj
        · exact ⟨hj, ‹_›⟩
  | error k r' =>
      by_cases hk : q.child k = .absent
      · simp [step, hk] at hr
      · have hr : some (q.resolveRun k r') = some r := by simpa [step, hk] using hr
        obtain rfl := Option.some.inj hr
        apply sole_resolve hsole hturn
        rintro j hj
        refine ⟨hj, ?_⟩
        rintro rfl
        exact ha hj

/-- **The binaries never run side by side.** Whatever calls come in, and in whichever order
the processes end or fail to start: in each state at most one process is alive, and when a
process is started none is. -/
theorem one_bin_at_a_time (h : Trace (lts (step launch) Killable) start tr q) :
    (∀ j k, q.child j = .alive → q.child k = .alive → j = k) ∧
      ∀ a r, step launch q a = some r → Turn.starts r.2 ≠ [] → ∀ k, q.child k ≠ .alive := by
  obtain ⟨⟨m, stage, v, hs⟩, hsole⟩ :=
    h.invariant (I := fun q tr => (∃ m stage v, Standing q tr m stage v) ∧ Sole q tr)
      ⟨⟨_, _, _, standing_start⟩, fun k hk => by simp [start] at hk⟩
      fun q tr es q' ⟨⟨_, _, _, hs⟩, hsole⟩ ⟨a, ha, hstep⟩ =>
        ⟨standing_step hs hstep, sole_step hs hsole ha hstep⟩
  constructor
  · intro j k hj hk
    rw [hsole j hj, hsole k hk]
  · intro a r hr hstarts k hk
    cases a with
    | call task =>
        obtain rfl := Option.some.inj hr
        exact hstarts rfl
    | job =>
        rcases job_cases hr with ⟨-, -, hnone⟩ | ⟨i, t, o, jobs, hjobs, -⟩
        · exact hstarts hnone
        · obtain ⟨hfirst, habsent⟩ := hs.start_job hjobs
          rw [hsole k hk, ← hfirst, habsent] at hk
          cases hk
    | close i r' | error i r' =>
        simp only [step] at hr
        split at hr
        · cases hr
        · obtain rfl := Option.some.inj hr
          unfold resolveRun at hstarts
          dsimp only at hstarts
          split at hstarts <;> exact hstarts rfl

/-- Two calls, and a process for each. -/
def twoRuns : List (Act String ℕ) :=
  [.call "build_escrow", .call "verify_escrow", .job, .job, .close 0 7] ++ List.replicate 5 .job

theorem one_bin_at_a_time_demo : ∃ q : MidenQueue String ℕ String, q.child 1 = .alive ∧
    ∀ j, q.child j = .alive → j = 1 := by
  have h := trace_exec (step fun _ => Launch.runs) Killable (start : MidenQueue String ℕ String)
    twoRuns (by decide) (by decide)
  have halive : ((exec (step fun _ => Launch.runs) (start : MidenQueue String ℕ String)
      twoRuns).get (by decide)).1.child 1 = .alive := by decide
  exact ⟨_, halive, fun j hj => (one_bin_at_a_time h).1 j 1 hj halive⟩

end Runs

end MidenQueue

end Bartok.Bridge
