import Bartok.Bridge.Handlers
import Bartok.Foundation.JsonText
import Bartok.Foundation.OrderedMap
import Bartok.Foundation.Trace
import Bartok.Foundation.Window

/-!
# The rate limiter

`rateOk` keeps, for each address and bucket, the times of the calls it allowed, and forgets
those that have left the window. The table does not grow beyond 5000 keys: the first 1000
go then. A map has its keys in the order in which they first came, however often they are
set again, so that a client with a full window can be among them while thousands that have
nothing to count stay.
-/

namespace Bartok.Bridge

open Foundation

/-! ## The handlers' side -/

/-- What `rateOk` reads of a request. -/
structure Caller where
  forwardedFor : Option Text
  remoteAddress : Option Text
  testRatelimit : Option Text

/-- A value that is neither missing nor empty. -/
def given (v : Option Text) : Option Text := v.filter (· ≠ [])

/-- A client can prepend entries to `x-forwarded-for`; the last one is not its own. -/
def clientIp (req : Caller) : Text :=
  let parts := (((req.forwardedFor.getD []).splitOn ',').map State.trim).filter (· ≠ [])
  ((parts.getLast?).or (given req.remoteAddress)).getD "unknown".toList

/-- The buckets of a limiter, each with the limit and the window it is called with. -/
structure Buckets (β : Type*) where
  name : β → Text
  limit : β → ℕ
  windowMs : β → ℕ
  name_injective : Function.Injective name
  colon_not_mem : ∀ b, ':' ∉ name b

def Buckets.key {β : Type*} (bs : Buckets β) (ip : Text) (b : β) : Text := ip ++ ':' :: bs.name b

abbrev RateHits := OrderedMap Text (List ℕ)

def RateHits.hits (table : RateHits) (key : Text) : List ℕ := (table.get? key).getD []

def maxKeys : ℕ := 5000

def evictedKeys : ℕ := 1000

/-- The process is in test mode and the request does not ask for the limiter. -/
def unlimited (testing : Bool) (req : Caller) : Bool :=
  testing && (given req.testRatelimit).isNone

section Limiter

variable {β : Type*} (bs : Buckets β) (testing : Bool)

def rateOk (table : RateHits) (now : ℕ) (req : Caller) (b : β) : RateHits × Bool :=
  if unlimited testing req then (table, true)
  else
    let key := bs.key (clientIp req) b
    let hits := recent (bs.windowMs b) now (table.hits key)
    if bs.limit b ≤ hits.length then (table.set key hits, false)
    else
      let table := table.set key (hits ++ [now])
      (if maxKeys < table.size then table.dropFirst evictedKeys else table, true)

/-! ## Its runs -/

structure Limiter where
  rateHits : RateHits
  now : ℕ

def Limiter.fresh : Limiter := ⟨.empty, 0⟩

structure RateCall (β : Type*) where
  elapsed : ℕ
  req : Caller
  bucket : β

structure RateAnswer (β : Type*) where
  ip : Text
  bucket : β
  time : ℕ
  ok : Bool

def rateStep (s : Limiter) (c : RateCall β) : Option (Limiter × List (RateAnswer β)) :=
  let now := s.now + c.elapsed
  let r := rateOk bs testing s.rateHits now c.req c.bucket
  some (⟨r.1, now⟩, [⟨clientIp c.req, c.bucket, now, r.2⟩])

end Limiter

/-- The times at which the client's calls of the bucket were allowed. -/
def allowedAt {β : Type*} [DecidableEq β] (ip : Text) (b : β) (tr : List (RateAnswer β)) : List ℕ :=
  (tr.filter fun e => e.ok ∧ e.ip = ip ∧ e.bucket = b).map RateAnswer.time

/-! ## When an eviction hits -/

section Spares

variable {β : Type*} [DecidableEq β] (bs : Buckets β) (testing : Bool) (ip : Text) (b : β)
  (s : Limiter) (c : RateCall β)

def RateCall.key : Text := bs.key (clientIp c.req) c.bucket

/-- What is still to be counted at the time of the call. -/
def Limiter.live (elapsed : ℕ) : List ℕ :=
  recent (bs.windowMs b) (s.now + elapsed) (s.rateHits.hits (bs.key ip b))

/-- The call is allowed, and there is a key too many after it. -/
def Evicts : Prop :=
  maxKeys ≤ s.rateHits.size ∧ (c.key bs ∉ s.rateHits.keys ∨ maxKeys < s.rateHits.size) ∧
    (s.live bs (clientIp c.req) c.bucket c.elapsed).length < bs.limit c.bucket

/-- The client's key goes although the limiter still counts calls of it, or this very call. -/
def Forgets : Prop :=
  Evicts bs s c ∧ bs.key ip b ∈ s.rateHits.keys.take evictedKeys ∧
    (s.live bs ip b c.elapsed ≠ [] ∨ c.key bs = bs.key ip b ∧ 0 < bs.windowMs b)

/-- The limiter is on, and no eviction forgets what is to be counted for this client. -/
def Spares : Prop := unlimited testing c.req = false ∧ ¬ Forgets bs ip b s c

instance : Decidable (Evicts bs s c) := inferInstanceAs (Decidable (_ ∧ _ ∧ _))

instance : Decidable (Forgets bs ip b s c) := inferInstanceAs (Decidable (_ ∧ _ ∧ _))

instance : Decidable (Spares bs testing ip b s c) := inferInstanceAs (Decidable (_ ∧ _))

end Spares

/-! ## What one call does -/

section Steps

variable {β : Type*} {bs : Buckets β} {testing : Bool} {ip : Text} {b : β} {table : RateHits}
  {now n : ℕ} {req : Caller} {key key' : Text} {v : List ℕ}

theorem takeWhile_colon {name : Text} (h : ':' ∉ name) :
    ((ip ++ ':' :: name).reverse.takeWhile (· ≠ ':')) = name.reverse := by
  rw [List.reverse_append, List.reverse_cons, List.append_assoc,
    List.takeWhile_append_of_pos fun c hc => by
      simpa using fun heq : c = ':' => h (heq ▸ List.mem_reverse.mp hc)]
  simp

theorem Buckets.key_inj {ip' : Text} {b' : β} :
    bs.key ip b = bs.key ip' b' ↔ ip = ip' ∧ b = b' := by
  refine ⟨fun h => ?_, fun ⟨hip, hb⟩ => by rw [hip, hb]⟩
  have hname := congrArg (fun key : Text => key.reverse.takeWhile (· ≠ ':')) h
  simp only [Buckets.key, takeWhile_colon (bs.colon_not_mem _)] at hname
  obtain rfl := bs.name_injective (List.reverse_injective hname)
  exact ⟨List.append_cancel_right h, rfl⟩

theorem hits_set :
    RateHits.hits (table.set key v) key' = if key' = key then v else table.hits key' := by
  rw [RateHits.hits, OrderedMap.get?_set]
  split <;> rfl

theorem hits_dropFirst : RateHits.hits (table.dropFirst n) key =
    if key ∈ table.keys.take n then [] else table.hits key := by
  rw [RateHits.hits, OrderedMap.get?_dropFirst]
  split <;> rfl

theorem crowded_iff : maxKeys < OrderedMap.size (table.set key v) ↔
    maxKeys ≤ table.size ∧ (key ∉ table.keys ∨ maxKeys < table.size) := by
  rw [OrderedMap.size_set]
  split
  · next hmem =>
      simp only [hmem, not_true_eq_false, false_or]
      omega
  · next hmem =>
      simp only [hmem, not_false_eq_true, true_or, and_true]
      omega

theorem rateOk_eq (hlimited : unlimited testing req = false) :
    let hits := recent (bs.windowMs b) now (table.hits (bs.key (clientIp req) b))
    let next := table.set (bs.key (clientIp req) b)
      (hits ++ if hits.length < bs.limit b then [now] else [])
    rateOk bs testing table now req b =
      (if hits.length < bs.limit b ∧ maxKeys < next.size then next.dropFirst evictedKeys else next,
        decide (hits.length < bs.limit b)) := by
  intro hits next
  rw [rateOk, if_neg (by rw [hlimited]; exact Bool.false_ne_true)]
  by_cases hok : hits.length < bs.limit b
  · rw [if_neg (not_le.mpr hok), decide_eq_true hok]
    simp only [next, hok, true_and, if_true]
    rfl
  · rw [if_pos (not_lt.mp hok), decide_eq_false hok]
    simp only [next, hok, false_and, if_false, List.append_nil]
    rfl

variable {s s' : Limiter} {c : RateCall β} {es : List (RateAnswer β)}

/-- The count that decides about the call. -/
def Limiter.count (bs : Buckets β) (s : Limiter) (c : RateCall β) : List ℕ :=
  s.live bs (clientIp c.req) c.bucket c.elapsed

theorem evicts_iff : Evicts bs s c ↔ (s.count bs c).length < bs.limit c.bucket ∧
    maxKeys < OrderedMap.size (s.rateHits.set (c.key bs) v) := by
  rw [crowded_iff, Evicts, Limiter.count]
  tauto

/-- All that one call does: its answer, the time, and what is left to count for a client. -/
theorem rateStep_eq (ip : Text) (b : β) (hlimited : unlimited testing c.req = false)
    (hstep : rateStep bs testing s c = some (s', es)) :
    es = [⟨clientIp c.req, c.bucket, s.now + c.elapsed,
        decide ((s.count bs c).length < bs.limit c.bucket)⟩] ∧
      s'.now = s.now + c.elapsed ∧
      s'.rateHits.hits (bs.key ip b) =
        if Evicts bs s c ∧ bs.key ip b ∈ s.rateHits.keys.take evictedKeys then []
        else if bs.key ip b = c.key bs then
          s.count bs c ++
            if (s.count bs c).length < bs.limit c.bucket then [s.now + c.elapsed] else []
        else s.rateHits.hits (bs.key ip b) := by
  rw [rateStep, rateOk_eq hlimited, Option.some.injEq, Prod.mk.injEq] at hstep
  obtain ⟨rfl, rfl⟩ := hstep
  refine ⟨rfl, rfl, ?_⟩
  set next := s.rateHits.set (c.key bs) (s.count bs c ++
    if (s.count bs c).length < bs.limit c.bucket then [s.now + c.elapsed] else []) with hnext
  change RateHits.hits (if (s.count bs c).length < bs.limit c.bucket ∧ maxKeys < next.size then
    next.dropFirst evictedKeys else next) (bs.key ip b) = _
  rw [← hits_set]
  by_cases hevicts : Evicts bs s c
  · have hsize : evictedKeys ≤ s.rateHits.size :=
      (by decide : evictedKeys ≤ maxKeys).trans hevicts.1
    rw [if_pos (evicts_iff.mp hevicts), hits_dropFirst, hnext, OrderedMap.take_keys_set hsize]
    simp only [hevicts, true_and]
  · rw [if_neg fun h => hevicts (evicts_iff.mpr h), if_neg fun h => hevicts h.1]

/-- Without an eviction a new key comes last, and nothing else moves. -/
theorem keys_rateStep (hlimited : unlimited testing c.req = false)
    (hstep : rateStep bs testing s c = some (s', es)) (hcalm : ¬ Evicts bs s c) :
    s'.rateHits.keys = if c.key bs ∈ s.rateHits.keys then s.rateHits.keys
      else s.rateHits.keys ++ [c.key bs] := by
  rw [rateStep, rateOk_eq hlimited, Option.some.injEq, Prod.mk.injEq] at hstep
  obtain ⟨rfl, -⟩ := hstep
  refine (congrArg OrderedMap.keys (if_neg fun h => hcalm (evicts_iff.mpr h))).trans ?_
  rw [OrderedMap.keys_set]
  by_cases hmem : c.key bs ∈ s.rateHits.keys
  · exact (if_pos hmem).trans (if_pos hmem).symm
  · exact (if_neg hmem).trans (if_neg hmem).symm

end Steps

/-! ## The limiter remembers what it allowed -/

section Runs

variable {β : Type*} [DecidableEq β] {bs : Buckets β} {testing : Bool} {ip : Text} {b : β}
  {s s' : Limiter} {c : RateCall β} {es tr : List (RateAnswer β)} {e : RateAnswer β}

theorem allowedAt_concat : allowedAt ip b (tr ++ [e]) =
    allowedAt ip b tr ++ if e.ok ∧ e.ip = ip ∧ e.bucket = b then [e.time] else [] := by
  rw [allowedAt, List.filter_append, List.map_append, allowedAt, List.filter_singleton]
  by_cases h : e.ok ∧ e.ip = ip ∧ e.bucket = b
  · rw [if_pos h, decide_eq_true h]
    rfl
  · rw [if_neg h, decide_eq_false h]
    rfl

/-- What is counted for the client is what was allowed and has not left the window. -/
structure Remembers (bs : Buckets β) (ip : Text) (b : β) (s : Limiter)
    (tr : List (RateAnswer β)) : Prop where
  counted : ∀ now, s.now ≤ now → recent (bs.windowMs b) now (s.rateHits.hits (bs.key ip b)) =
    recent (bs.windowMs b) now (allowedAt ip b tr)
  past : ∀ t ∈ allowedAt ip b tr, t ≤ s.now
  bound : WindowBound (bs.limit b) (bs.windowMs b) (allowedAt ip b tr)

theorem remembers_fresh : Remembers bs ip b Limiter.fresh [] where
  counted _ _ := rfl
  past := nofun
  bound _ := Nat.zero_le _

/-- What the call finds to be counted. -/
theorem Remembers.live_eq (h : Remembers bs ip b s tr) (elapsed : ℕ) :
    s.live bs ip b elapsed = recent (bs.windowMs b) (s.now + elapsed) (allowedAt ip b tr) :=
  h.counted _ (Nat.le_add_right _ _)

/-- Time passes, and what is counted is the same. -/
theorem Remembers.later (h : Remembers bs ip b s tr) (hnow : s.now ≤ s'.now)
    (hcounted : ∀ now, s'.now ≤ now →
      recent (bs.windowMs b) now (s'.rateHits.hits (bs.key ip b)) =
        recent (bs.windowMs b) now (allowedAt ip b tr))
    (hsame : allowedAt ip b (tr ++ es) = allowedAt ip b tr) : Remembers bs ip b s' (tr ++ es) where
  counted now hle := by rw [hsame, hcounted now hle]
  past t ht := (h.past t (hsame ▸ ht)).trans hnow
  bound := hsame ▸ h.bound

/-- A call of another key: this client's calls go only when none of them counts. -/
theorem Remembers.other (h : Remembers bs ip b s tr) (hc : Spares bs testing ip b s c)
    (hstep : rateStep bs testing s c = some (s', es)) (hother : bs.key ip b ≠ c.key bs) :
    Remembers bs ip b s' (tr ++ es) := by
  obtain ⟨hes, hnow, hhits⟩ := rateStep_eq ip b hc.1 hstep
  rw [if_neg hother] at hhits
  have hsame : allowedAt ip b (tr ++ es) = allowedAt ip b tr := by
    rw [hes, allowedAt_concat, if_neg, List.append_nil]
    rintro ⟨-, hip, hb⟩
    exact hother (Buckets.key_inj.mpr ⟨hip.symm, hb.symm⟩)
  refine h.later (hnow ▸ Nat.le_add_right _ _) (fun now hle => ?_) hsame
  rw [hnow] at hle
  rw [hhits]
  split
  · next hgone =>
      have hnone : s.live bs ip b c.elapsed = [] := by
        by_contra hsome
        exact hc.2 ⟨hgone.1, hgone.2, .inl hsome⟩
      calc recent (bs.windowMs b) now []
        _ = recent (bs.windowMs b) now (s.live bs ip b c.elapsed) := by rw [hnone]
        _ = recent (bs.windowMs b) now (allowedAt ip b tr) := by rw [h.live_eq, recent_recent hle]
  · exact h.counted now ((Nat.le_add_right _ _).trans hle)

/-- The client's own call: it is counted, and stays so while its window lasts. -/
theorem Remembers.own (h : Remembers bs (clientIp c.req) c.bucket s tr)
    (hc : Spares bs testing (clientIp c.req) c.bucket s c)
    (hstep : rateStep bs testing s c = some (s', es)) :
    Remembers bs (clientIp c.req) c.bucket s' (tr ++ es) := by
  obtain ⟨hes, hnow, hhits⟩ := rateStep_eq (clientIp c.req) c.bucket hc.1 hstep
  have hown : bs.key (clientIp c.req) c.bucket = c.key bs := rfl
  have hcount : s.count bs c = recent (bs.windowMs c.bucket) (s.now + c.elapsed)
      (allowedAt (clientIp c.req) c.bucket tr) := h.live_eq c.elapsed
  rw [if_pos hown] at hhits
  by_cases hfew : (s.count bs c).length < bs.limit c.bucket
  · rw [if_pos hfew] at hhits
    have hall : allowedAt (clientIp c.req) c.bucket (tr ++ es) =
        allowedAt (clientIp c.req) c.bucket tr ++ [s.now + c.elapsed] := by
      rw [hes, allowedAt_concat, if_pos ⟨decide_eq_true hfew, rfl, rfl⟩]
    have hpast : ∀ t ∈ allowedAt (clientIp c.req) c.bucket tr, t ≤ s.now + c.elapsed :=
      fun t ht => (h.past t ht).trans (Nat.le_add_right _ _)
    refine ⟨fun now hle => ?_, fun t ht => ?_, ?_⟩
    · rw [hnow] at hle
      rw [hhits, hall, recent_append]
      split
      · next hgone =>
          -- the call's own key goes at once: only a window of no length allows that
          have hzero : bs.windowMs c.bucket = 0 := by
            by_contra hpos
            exact hc.2 ⟨hgone.1, hgone.2, .inr ⟨rfl, Nat.pos_of_ne_zero hpos⟩⟩
          have hnone : ∀ ts : List ℕ, (∀ t ∈ ts, t ≤ s.now + c.elapsed) →
              recent (bs.windowMs c.bucket) now ts = [] := fun ts hts =>
            recent_eq_nil fun t ht => by
              have := hts t ht
              omega
          rw [hnone _ hpast, hnone [_] (by simp)]
          rfl
      · rw [recent_append, hcount, recent_recent hle]
    · rw [hall, List.mem_append, List.mem_singleton] at ht
      rw [hnow]
      exact ht.elim (hpast t) fun heq => heq.le
    · rw [hall]
      exact h.bound.concat hpast (hcount ▸ hfew)
  · have hsame : allowedAt (clientIp c.req) c.bucket (tr ++ es) =
        allowedAt (clientIp c.req) c.bucket tr := by
      rw [hes, allowedAt_concat, if_neg fun hok => hfew (of_decide_eq_true hok.1), List.append_nil]
    refine h.later (hnow ▸ Nat.le_add_right _ _) (fun now hle => ?_) hsame
    rw [hnow] at hle
    rw [hhits, if_neg fun hgone => hfew hgone.1.2.2, if_neg hfew, List.append_nil, hcount,
      recent_recent hle]

theorem Remembers.step (h : Remembers bs ip b s tr) (hc : Spares bs testing ip b s c)
    (hstep : rateStep bs testing s c = some (s', es)) : Remembers bs ip b s' (tr ++ es) := by
  by_cases hown : bs.key ip b = c.key bs
  · obtain ⟨rfl, rfl⟩ := Buckets.key_inj.mp hown
    exact h.own hc hstep
  · exact h.other hc hstep hown

/-- **The limit holds for a client that no eviction forgets**, whatever the calls of the
others are: no window of the bucket's length holds more allowed calls than its limit. -/
theorem rate_bounded
    (h : Trace (lts (rateStep bs testing) (Spares bs testing ip b)) Limiter.fresh tr s) :
    WindowBound (bs.limit b) (bs.windowMs b) (allowedAt ip b tr) :=
  (h.invariant remembers_fresh fun _ _ _ _ hrem ⟨_, hc, hstep⟩ => hrem.step hc hstep).bound

end Runs

/-! ## The buckets of the handlers -/

inductive RateBucket
  | clientlog
  | start
  | chat
  | redeem
  | auth
  deriving DecidableEq

namespace RateBucket

def name : RateBucket → Text
  | .clientlog => "clientlog".toList
  | .start => "start".toList
  | .chat => "chat".toList
  | .redeem => "redeem".toList
  | .auth => "auth".toList

def limit : RateBucket → ℕ
  | .clientlog => 30
  | .start => 20
  | .chat => 30
  | .redeem => 5
  | .auth => 10

theorem name_injective : Function.Injective name := by
  intro b b' h
  cases b <;> cases b' <;> first | rfl | exact absurd h (by decide)

theorem colon_not_mem (b : RateBucket) : ':' ∉ name b := by
  cases b <;> decide

end RateBucket

def rateBuckets : Buckets RateBucket where
  name := RateBucket.name
  limit := RateBucket.limit
  windowMs _ := 60000
  name_injective := RateBucket.name_injective
  colon_not_mem := RateBucket.colon_not_mem

/-! ## One address redeems seven times -/

def redeemCall (elapsed : ℕ) (ip : Text) : RateCall RateBucket :=
  ⟨elapsed, ⟨none, some ip, none⟩, .redeem⟩

def redeemerIp : Text := "203.0.113.7".toList

theorem rate_bounded_demo : ∃ (tr : List (RateAnswer RateBucket)) (s : Limiter),
    Trace (lts (rateStep rateBuckets false) (Spares rateBuckets false redeemerIp .redeem))
      Limiter.fresh tr s ∧
      tr.map RateAnswer.ok = [true, true, true, true, true, false, true] ∧
      WindowBound 5 60000 (allowedAt redeemerIp .redeem tr) :=
  have h := trace_exec (rateStep rateBuckets false)
    (Spares rateBuckets false redeemerIp .redeem) Limiter.fresh
    (([0, 0, 0, 0, 1000, 58999, 1].map fun elapsed => redeemCall elapsed redeemerIp))
    (by decide) (by decide)
  ⟨_, _, h, by decide, rate_bounded h⟩

/-! ## A crowd pushes a client out

One address redeems once, and 4999 others after it. A minute later it redeems five times,
which is its limit; then a new address comes, and the key that was there first goes, though
none of the others has anything left to count. -/

section Crowd

variable {s s' : Limiter} {tr : List (RateAnswer RateBucket)} {ip : Text} {elapsed i n : ℕ}
  {ts : List ℕ}

def AnyCall (_ : Limiter) (_ : RateCall RateBucket) : Prop := True

/-- An address of its own for each number below 65536. -/
def strangerIp (i : ℕ) : Text :=
  "fd00::".toList ++ [Text.hexDigit (i / 4096), Text.hexDigit (i / 256 % 16),
    Text.hexDigit (i / 16 % 16), Text.hexDigit (i % 16)]

theorem hexDigit_inj {m : ℕ} (hn : n < 16) (hm : m < 16)
    (h : Text.hexDigit n = Text.hexDigit m) : n = m := by
  have hvalue := congrArg Text.hexValue h
  rwa [Text.hexValue_hexDigit hn, Text.hexValue_hexDigit hm, Option.some.injEq] at hvalue

theorem strangerIp_inj {j : ℕ} (hi : i < 65536) (hj : j < 65536)
    (h : strangerIp i = strangerIp j) : i = j := by
  have hdigits := List.append_cancel_left h
  simp only [List.cons.injEq, and_true] at hdigits
  obtain ⟨h₁, h₂, h₃, h₄⟩ := hdigits
  have h₁ := hexDigit_inj (by omega) (by omega) h₁
  have h₂ := hexDigit_inj (by omega) (by omega) h₂
  have h₃ := hexDigit_inj (by omega) (by omega) h₃
  have h₄ := hexDigit_inj (by omega) (by omega) h₄
  omega

def redeemKey (ip : Text) : Text := rateBuckets.key ip .redeem

theorem redeemKey_inj {ip' : Text} : redeemKey ip = redeemKey ip' ↔ ip = ip' :=
  Buckets.key_inj.trans (and_iff_left rfl)

theorem clientIp_redeemCall (hip : ip ≠ []) : clientIp (redeemCall elapsed ip).req = ip := by
  have hgiven : given (some ip) = some ip := by simp [given, Option.filter, hip]
  change ((none : Option Text).or (given (some ip))).getD "unknown".toList = ip
  rw [hgiven]
  rfl

theorem key_redeemCall (hip : ip ≠ []) :
    (redeemCall elapsed ip).key rateBuckets = redeemKey ip := by
  rw [RateCall.key, clientIp_redeemCall hip]
  rfl

theorem count_redeemCall (hip : ip ≠ []) : s.count rateBuckets (redeemCall elapsed ip) =
    recent 60000 (s.now + elapsed) (s.rateHits.hits (redeemKey ip)) := by
  rw [Limiter.count, clientIp_redeemCall hip]
  rfl

/-- After a run without evictions: the first address and `n` others have their keys, in the
order in which they came, and the first address was allowed these calls. -/
structure Crowded (n : ℕ) (allowed : List ℕ) (tr : List (RateAnswer RateBucket)) (s : Limiter) :
    Prop where
  run : Trace (lts (rateStep rateBuckets false) AnyCall) Limiter.fresh tr s
  keys : s.rateHits.keys =
    redeemKey redeemerIp :: (List.range n).map fun i => redeemKey (strangerIp i)
  remembers : Remembers rateBuckets redeemerIp .redeem s tr
  allowed_eq : allowedAt redeemerIp .redeem tr = allowed

theorem Crowded.size (h : Crowded n ts tr s) : s.rateHits.size = n + 1 := by
  rw [← OrderedMap.length_keys, h.keys, List.length_cons, List.length_map, List.length_range]

/-- A call that does not evict keeps the keys that are there. -/
theorem Crowded.call (h : Crowded n ts tr s) (hip : ip ≠ [])
    (hcalm : ¬ Evicts rateBuckets s (redeemCall elapsed ip)) :
    ∃ s' ok, Trace (lts (rateStep rateBuckets false) AnyCall) Limiter.fresh
        (tr ++ [⟨ip, .redeem, s.now + elapsed, ok⟩]) s' ∧
      Remembers rateBuckets redeemerIp .redeem s' (tr ++ [⟨ip, .redeem, s.now + elapsed, ok⟩]) ∧
      s'.now = s.now + elapsed ∧
      s'.rateHits.keys = (if redeemKey ip ∈ s.rateHits.keys then s.rateHits.keys
        else s.rateHits.keys ++ [redeemKey ip]) ∧
      ok = decide ((recent 60000 (s.now + elapsed) (s.rateHits.hits (redeemKey ip))).length < 5) := by
  have hspares : Spares rateBuckets false redeemerIp .redeem s (redeemCall elapsed ip) :=
    ⟨rfl, fun hforgets => hcalm hforgets.1⟩
  obtain ⟨s', es, hstep⟩ : ∃ s' es,
      rateStep rateBuckets false s (redeemCall elapsed ip) = some (s', es) := ⟨_, _, rfl⟩
  obtain ⟨hes, hnow, -⟩ := rateStep_eq redeemerIp .redeem rfl hstep
  have hkeys := keys_rateStep rfl hstep hcalm
  rw [clientIp_redeemCall hip, count_redeemCall hip] at hes
  rw [key_redeemCall hip] at hkeys
  subst hes
  exact ⟨s', _, h.run.tail ⟨_, trivial, hstep⟩, h.remembers.step hspares hstep, hnow, hkeys, rfl⟩

theorem strangerIp_ne_nil : strangerIp i ≠ [] := nofun

theorem redeemerIp_ne_nil : redeemerIp ≠ [] := by decide

theorem strangerIp_ne_redeemerIp : strangerIp i ≠ redeemerIp := by
  intro h
  have hhead : some 'f' = some '2' := congrArg List.head? h
  exact absurd hhead (by decide)

theorem Crowded.stranger_new (h : Crowded n ts tr s) (hin : n ≤ i) (hi : i < 65536) :
    redeemKey (strangerIp i) ∉ s.rateHits.keys := by
  rw [h.keys, List.mem_cons, List.mem_map, not_or]
  refine ⟨fun heq => strangerIp_ne_redeemerIp (redeemKey_inj.mp heq), ?_⟩
  rintro ⟨k, hk, heq⟩
  have hk : k < n := List.mem_range.mp hk
  have := strangerIp_inj (by omega) hi (redeemKey_inj.mp heq)
  omega

/-- One address more. -/
theorem Crowded.join (h : Crowded n ts tr s) (hnow : s.now = 0) (hn : n < 4999) :
    ∃ tr' s', Crowded (n + 1) ts tr' s' ∧ s'.now = 0 := by
  have hcalm : ¬ Evicts rateBuckets s (redeemCall 0 (strangerIp n)) := by
    rintro ⟨hfull, -⟩
    rw [h.size, maxKeys] at hfull
    omega
  obtain ⟨s', ok, hrun, hrem, hnow', hkeys, -⟩ := h.call strangerIp_ne_nil hcalm
  have hnew := h.stranger_new (i := n) le_rfl (by omega)
  refine ⟨_, s', ⟨hrun, ?_, hrem, ?_⟩, hnow'.trans hnow⟩
  · rw [hkeys, if_neg hnew, h.keys, List.range_succ, List.map_append, List.cons_append]
    rfl
  · rw [allowedAt_concat, if_neg fun hsame => strangerIp_ne_redeemerIp hsame.2.1, List.append_nil,
      h.allowed_eq]

/-- The first address calls again, a minute after the others. -/
theorem Crowded.again (h : Crowded n ts tr s) (hnow : s.now ≤ 60000) (hn : n ≤ 4999)
    (hfew : (recent 60000 60000 ts).length < 5) :
    ∃ tr' s', Crowded n (ts ++ [60000]) tr' s' ∧ s'.now = 60000 := by
  have hlater : s.now + (60000 - s.now) = 60000 := by omega
  have hmem : redeemKey redeemerIp ∈ s.rateHits.keys := h.keys ▸ List.mem_cons_self
  have hcalm : ¬ Evicts rateBuckets s (redeemCall (60000 - s.now) redeemerIp) := by
    rintro ⟨-, hnew | hover, -⟩
    · exact hnew hmem
    · rw [h.size, maxKeys] at hover
      omega
  obtain ⟨s', ok, hrun, hrem, hnow', hkeys, hok⟩ := h.call redeemerIp_ne_nil hcalm
  rw [hlater] at hnow' hok hrun hrem
  have hcount :
      recent 60000 60000 (s.rateHits.hits (redeemKey redeemerIp)) = recent 60000 60000 ts := by
    rw [← h.allowed_eq]
    exact h.remembers.counted 60000 hnow
  rw [hcount, decide_eq_true hfew] at hok
  refine ⟨_, s', ⟨hrun, ?_, hrem, ?_⟩, hnow'⟩
  · rw [hkeys, if_pos hmem, h.keys]
  · rw [allowedAt_concat, if_pos ⟨hok, rfl, rfl⟩, h.allowed_eq]

theorem crowded_start : ∃ tr s, Crowded 0 [0] tr s ∧ s.now = 0 :=
  ⟨_, _, ⟨.single ⟨redeemCall 0 redeemerIp, trivial, rfl⟩, by decide,
    remembers_fresh.step (by decide : Spares rateBuckets false redeemerIp .redeem Limiter.fresh
      (redeemCall 0 redeemerIp)) rfl, by decide⟩, rfl⟩

theorem crowded_all : ∀ n ≤ 4999, ∃ tr s, Crowded n [0] tr s ∧ s.now = 0
  | 0, _ => crowded_start
  | n + 1, hn => by
      obtain ⟨tr, s, h, hnow⟩ := crowded_all n (by omega)
      exact h.join hnow (by omega)

/-- The first address uses up its limit. -/
theorem crowded_full : ∀ j ≤ 5, ∃ tr s,
    Crowded 4999 (0 :: List.replicate j 60000) tr s ∧ s.now ≤ 60000
  | 0, _ => by
      obtain ⟨tr, s, h, hnow⟩ := crowded_all 4999 le_rfl
      exact ⟨tr, s, h, by omega⟩
  | j + 1, hj => by
      obtain ⟨tr, s, h, hnow⟩ := crowded_full j (by omega)
      have hrecent : recent 60000 60000 (0 :: List.replicate j 60000) = List.replicate j 60000 := by
        simp [recent]
      have hfew : (recent 60000 60000 (0 :: List.replicate j 60000)).length < 5 := by
        rw [hrecent, List.length_replicate]
        omega
      obtain ⟨tr', s', h', hnow'⟩ := h.again hnow le_rfl hfew
      rw [List.cons_append, ← List.replicate_succ'] at h'
      exact ⟨tr', s', h', hnow'.le⟩

/-- The 5001st key comes, the first address goes, and is allowed its sixth call within the
same millisecond. -/
theorem limit_exceeded : ¬ ∀ (ip : Text) (b : RateBucket) (tr : List (RateAnswer RateBucket))
    (s : Limiter), Trace (lts (rateStep rateBuckets false) AnyCall) Limiter.fresh tr s →
      WindowBound (rateBuckets.limit b) (rateBuckets.windowMs b) (allowedAt ip b tr) := by
  intro hbound
  obtain ⟨tr, s, h, hnow⟩ := crowded_full 5 le_rfl
  have hlater : s.now + (60000 - s.now) = 60000 := by omega
  -- the newcomer's call
  have hnew := h.stranger_new (i := 4999) le_rfl (by omega)
  have hnone : s.rateHits.hits (redeemKey (strangerIp 4999)) = [] := by
    rw [RateHits.hits, OrderedMap.get?_eq_none.mpr hnew]
    rfl
  have hevicts : Evicts rateBuckets s (redeemCall (60000 - s.now) (strangerIp 4999)) := by
    refine ⟨h.size.ge, .inl ?_, ?_⟩
    · rwa [key_redeemCall strangerIp_ne_nil]
    · have hcount : s.count rateBuckets (redeemCall (60000 - s.now) (strangerIp 4999)) = [] := by
        rw [count_redeemCall strangerIp_ne_nil, hnone]
        rfl
      exact (congrArg List.length hcount).trans_lt (Nat.zero_lt_succ 4)
  have hfront : redeemKey redeemerIp ∈ s.rateHits.keys.take evictedKeys := by
    rw [h.keys, evictedKeys, List.take_succ_cons]
    exact List.mem_cons_self
  obtain ⟨s₁, es₁, hstep₁⟩ : ∃ s₁ es₁, rateStep rateBuckets false s
      (redeemCall (60000 - s.now) (strangerIp 4999)) = some (s₁, es₁) := ⟨_, _, rfl⟩
  obtain ⟨hes₁, hnow₁, hhits₁⟩ := rateStep_eq redeemerIp .redeem rfl hstep₁
  rw [if_pos ⟨hevicts, hfront⟩] at hhits₁
  -- the sixth call of the first address
  obtain ⟨s₂, es₂, hstep₂⟩ : ∃ s₂ es₂, rateStep rateBuckets false s₁
      (redeemCall 0 redeemerIp) = some (s₂, es₂) := ⟨_, _, rfl⟩
  obtain ⟨hes₂, -, -⟩ := rateStep_eq redeemerIp .redeem rfl hstep₂
  have hcount₂ : s₁.count rateBuckets (redeemCall 0 redeemerIp) = [] := by
    rw [count_redeemCall redeemerIp_ne_nil, redeemKey, hhits₁]
    rfl
  rw [clientIp_redeemCall strangerIp_ne_nil] at hes₁
  rw [clientIp_redeemCall redeemerIp_ne_nil, hcount₂, hnow₁] at hes₂
  have hallowed : allowedAt redeemerIp .redeem (tr ++ es₁ ++ es₂) =
      0 :: List.replicate 5 60000 ++ [60000] := by
    rw [hes₁, hes₂, allowedAt_concat, allowedAt_concat, h.allowed_eq,
      if_neg fun hsame => strangerIp_ne_redeemerIp hsame.2.1, List.append_nil]
    exact congrArg (fun t => 0 :: List.replicate 5 60000 ++ [t]) hlater
  have hwindow := hbound redeemerIp .redeem _ s₂
    ((h.run.tail ⟨_, trivial, hstep₁⟩).tail ⟨_, trivial, hstep₂⟩) 60000
  rw [hallowed] at hwindow
  exact absurd hwindow (by decide)

end Crowd

/-! ## Behind the proxy

The proxy appends the address it sees to the header the client sent, after a comma. Whatever
the client wrote, in whatever shape, stays in front of the last comma. -/

section Proxied

variable {req : Caller} {address : Text} {sent : Option Text} {blanks : ℕ}

/-- The header that the proxy forwards. -/
def forwardedHeader (sent : Option Text) (blanks : ℕ) (address : Text) : Text :=
  match sent with
  | none => address
  | some sent => sent ++ ',' :: (List.replicate blanks ' ' ++ address)

/-- The request as it arrives at the bridge. -/
def Caller.proxied (req : Caller) (sent : Option Text) (blanks : ℕ) (address : Text) : Caller :=
  { req with forwardedFor := some (forwardedHeader sent blanks address) }

theorem trim_blanks : State.trim (List.replicate blanks ' ' ++ address) = State.trim address := by
  rw [State.trim, List.dropWhile_append_of_pos fun c hc => by
    rw [List.eq_of_mem_replicate hc]
    rfl]
  rfl

/-- The last entry is the one of the proxy. -/
theorem splitOn_forwardedHeader (hcomma : ',' ∉ address) :
    ∃ entries n, (forwardedHeader sent blanks address).splitOn ',' =
      entries ++ [List.replicate n ' ' ++ address] := by
  cases sent with
  | none => exact ⟨[], 0, List.splitOn_eq_singleton hcomma⟩
  | some sent =>
      have hlast : ',' ∉ List.replicate blanks ' ' ++ address := by
        intro h
        rcases List.mem_append.mp h with h | h
        · cases List.eq_of_mem_replicate h
        · exact hcomma h
      refine ⟨sent.splitOn ',', blanks, ?_⟩
      rw [forwardedHeader, List.splitOn_append_cons_self, List.splitOn_eq_singleton hlast]

theorem clientIp_proxied (hne : address ≠ []) (hcomma : ',' ∉ address)
    (htrim : State.trim address = address) :
    clientIp (req.proxied sent blanks address) = address := by
  obtain ⟨entries, n, hsplit⟩ : ∃ entries n, (forwardedHeader sent blanks address).splitOn ',' =
      entries ++ [List.replicate n ' ' ++ address] := splitOn_forwardedHeader hcomma
  have hlast : ((((forwardedHeader sent blanks address).splitOn ',').map State.trim).filter
      (· ≠ [])).getLast? = some address := by
    rw [hsplit, List.map_append, List.map_singleton, trim_blanks, htrim, List.filter_append,
      List.filter_cons_of_pos (by simpa using hne), List.filter_nil, List.getLast?_concat]
  simp only [clientIp, Caller.proxied, Option.getD_some, hlast, Option.some_or]

/-- **A client cannot choose its own rate-limit identity.** Behind the proxy a request
counts for the address that the proxy saw, and requests that differ only in what the client
wrote into the header are counted alike. -/
theorem identity_not_chosen (hne : address ≠ []) (hcomma : ',' ∉ address)
    (htrim : State.trim address = address) :
    (∀ (req : Caller) sent blanks, clientIp (req.proxied sent blanks address) = address) ∧
      ∀ {β : Type} (bs : Buckets β) testing table now (req : Caller) b sent sent' blanks blanks',
        bs.key (clientIp (req.proxied sent blanks address)) b =
            bs.key (clientIp (req.proxied sent' blanks' address)) b ∧
          rateOk bs testing table now (req.proxied sent blanks address) b =
            rateOk bs testing table now (req.proxied sent' blanks' address) b := by
  refine ⟨fun req sent blanks => clientIp_proxied hne hcomma htrim, ?_⟩
  intro β bs testing table now req b sent sent' blanks blanks'
  have hsame : clientIp (req.proxied sent blanks address) =
      clientIp (req.proxied sent' blanks' address) := by
    rw [clientIp_proxied hne hcomma htrim, clientIp_proxied hne hcomma htrim]
  refine ⟨by rw [hsame], ?_⟩
  have hlimited : unlimited testing (req.proxied sent blanks address) =
      unlimited testing (req.proxied sent' blanks' address) := rfl
  rw [rateOk, rateOk, hsame, hlimited]

/-- A client that writes another address into the header, and an empty entry after it. -/
theorem identity_not_chosen_demo :
    clientIp (Caller.proxied ⟨none, none, none⟩ (some "198.51.100.9, ,".toList) 1
      "203.0.113.7".toList) = "203.0.113.7".toList :=
  (identity_not_chosen (by decide) (by decide) (by decide)).1 _ _ _

end Proxied

end Bartok.Bridge
