import Bartok.Bridge.RateLimit

/-!
# The table of the rate limiter

An eviction can only make the limiter forget calls. So it never refuses a client for the calls
of others: behind every refusal there are as many allowed calls of the same client and bucket,
all within the last window, as the limit says. And with positive limits the table never has
more than 5000 keys, each with no more times than its limit.
-/

namespace Bartok.Bridge

open Foundation

section Table

variable {β : Type*} {bs : Buckets β} {testing : Bool} {s s' : Limiter} {c : RateCall β}
  {es : List (RateAnswer β)} {ip key : Text} {b : β}

theorem keys_dropFirst {m : RateHits} {n : ℕ} : (m.dropFirst n).keys = m.keys.drop n :=
  List.map_drop

/-- The table behind a call that the limiter counts. -/
theorem rateHits_rateStep (hlimited : unlimited testing c.req = false)
    (hstep : rateStep bs testing s c = some (s', es)) :
    let next := s.rateHits.set (c.key bs) (s.count bs c ++
      if (s.count bs c).length < bs.limit c.bucket then [s.now + c.elapsed] else [])
    s'.rateHits = if (s.count bs c).length < bs.limit c.bucket ∧ maxKeys < next.size then
      next.dropFirst evictedKeys else next := by
  rw [rateStep, rateOk_eq hlimited, Option.some.injEq, Prod.mk.injEq] at hstep
  exact hstep.1 ▸ rfl

/-- Where the limiter is off, the table stays. -/
theorem rateHits_unlimited (hoff : unlimited testing c.req = true)
    (hstep : rateStep bs testing s c = some (s', es)) : s'.rateHits = s.rateHits := by
  rw [rateStep, rateOk, if_pos hoff, Option.some.injEq, Prod.mk.injEq] at hstep
  exact hstep.1 ▸ rfl

/-- A client that is refused has its key already. -/
theorem mem_keys_of_full (hlimit : 0 < bs.limit c.bucket)
    (hfull : bs.limit c.bucket ≤ (s.count bs c).length) : c.key bs ∈ s.rateHits.keys := by
  by_contra hnew
  have hnone : RateHits.hits s.rateHits (c.key bs) = [] := by
    rw [RateHits.hits, OrderedMap.get?_eq_none.mpr hnew]
    rfl
  have hcount : s.count bs c = [] := by
    show recent _ _ (RateHits.hits s.rateHits (c.key bs)) = []
    rw [hnone]
    rfl
  rw [hcount, List.length_nil] at hfull
  omega

/-- At most 5000 keys, each of a client and a bucket, with no more times than the limit. -/
structure Bounded (bs : Buckets β) (table : RateHits) : Prop where
  size : table.size ≤ maxKeys
  keys : ∀ key ∈ table.keys, ∃ ip b, key = bs.key ip b
  hits : ∀ ip b, (table.hits (bs.key ip b)).length ≤ bs.limit b

theorem bounded_fresh : Bounded bs Limiter.fresh.rateHits where
  size := Nat.zero_le _
  keys := nofun
  hits _ _ := Nat.zero_le _

theorem Bounded.dropFirst {table : RateHits} {n : ℕ}
    (hsize : table.size ≤ maxKeys + n) (hkeys : ∀ key ∈ table.keys, ∃ ip b, key = bs.key ip b)
    (hhits : ∀ ip b, (table.hits (bs.key ip b)).length ≤ bs.limit b) :
    Bounded bs (table.dropFirst n) where
  size := by
    show (table.entries.drop n).length ≤ maxKeys
    rw [List.length_drop]
    exact Nat.sub_le_of_le_add hsize
  keys key hkey := hkeys key (List.mem_of_mem_drop (keys_dropFirst ▸ hkey))
  hits ip b := by
    rw [hits_dropFirst]
    split
    · exact Nat.zero_le _
    · exact hhits ip b

theorem Bounded.step (h : Bounded bs s.rateHits) (hlimit : 0 < bs.limit c.bucket)
    (hstep : rateStep bs testing s c = some (s', es)) : Bounded bs s'.rateHits := by
  cases hoff : unlimited testing c.req with
  | true => exact rateHits_unlimited hoff hstep ▸ h
  | false =>
      have hcount : (s.count bs c).length ≤ bs.limit c.bucket :=
        (List.length_filter_le _ _).trans (h.hits _ _)
      set times := s.count bs c ++
        if (s.count bs c).length < bs.limit c.bucket then [s.now + c.elapsed] else [] with htimes
      have hkeys : ∀ key ∈ (s.rateHits.set (c.key bs) times).keys, ∃ ip b, key = bs.key ip b := by
        intro key hkey
        rw [OrderedMap.keys_set] at hkey
        split at hkey
        · exact h.keys key hkey
        · rcases List.mem_append.mp hkey with hold | hnew
          · exact h.keys key hold
          · exact ⟨_, _, List.mem_singleton.mp hnew⟩
      have hhits : ∀ ip b, (RateHits.hits (s.rateHits.set (c.key bs) times)
          (bs.key ip b)).length ≤ bs.limit b := by
        intro ip b
        rw [hits_set]
        split
        · next hsame =>
            obtain ⟨-, rfl⟩ := Buckets.key_inj.mp hsame
            rw [htimes, List.length_append]
            split
            · next hfew => exact hfew
            · exact hcount
        · exact h.hits ip b
      have hsize : (s.rateHits.set (c.key bs) times).size ≤ maxKeys + evictedKeys := by
        have hle := h.size
        have hone : 1 ≤ evictedKeys := by decide
        rw [OrderedMap.size_set]
        split <;> omega
      by_cases hcrowd : (s.count bs c).length < bs.limit c.bucket ∧
          maxKeys < OrderedMap.size (s.rateHits.set (c.key bs) times)
      · rw [rateHits_rateStep hoff hstep, if_pos hcrowd]
        exact .dropFirst hsize hkeys hhits
      · rw [rateHits_rateStep hoff hstep, if_neg hcrowd]
        refine ⟨?_, hkeys, hhits⟩
        by_cases hfew : (s.count bs c).length < bs.limit c.bucket
        · exact not_lt.mp fun hsize => hcrowd ⟨hfew, hsize⟩
        -- a refusal adds no key
        · show OrderedMap.size (s.rateHits.set (c.key bs) times) ≤ maxKeys
          rw [OrderedMap.size_set, if_pos (mem_keys_of_full hlimit (not_lt.mp hfew))]
          exact h.size

end Table

section Runs

variable {β : Type*} [DecidableEq β] {bs : Buckets β} {testing : Bool} {s s' : Limiter}
  {c : RateCall β} {ok : Limiter → RateCall β → Prop} {es tr : List (RateAnswer β)}

/-- The limiter counts nothing that it did not allow. -/
def Counted (bs : Buckets β) (s : Limiter) (tr : List (RateAnswer β)) : Prop :=
  ∀ ip b, (s.rateHits.hits (bs.key ip b)).Sublist (allowedAt ip b tr)

theorem counted_fresh : Counted bs Limiter.fresh [] := by
  intro ip b
  show ([] : List ℕ).Sublist []
  exact List.Sublist.refl []

theorem allowedAt_append {ip : Text} {b : β} :
    allowedAt ip b (tr ++ es) = allowedAt ip b tr ++ allowedAt ip b es := by
  rw [allowedAt, List.filter_append, List.map_append]
  rfl

theorem counted_step (h : Counted bs s tr) (hstep : rateStep bs testing s c = some (s', es)) :
    Counted bs s' (tr ++ es) := by
  intro ip b
  rw [allowedAt_append]
  cases hoff : unlimited testing c.req with
  | true =>
      rw [rateHits_unlimited hoff hstep]
      exact (h ip b).trans (List.sublist_append_left _ _)
  | false =>
      obtain ⟨rfl, -, hhits⟩ := rateStep_eq ip b hoff hstep
      rw [hhits]
      split
      · exact List.nil_sublist _
      split
      · next hown =>
          obtain ⟨rfl, rfl⟩ := Buckets.key_inj.mp hown
          have hcount : (s.count bs c).Sublist (allowedAt (clientIp c.req) c.bucket tr) :=
            List.filter_sublist.trans (h _ _)
          apply hcount.append
          split
          · next hfew => simp [allowedAt, hfew]
          · exact List.nil_sublist _
      · exact (h ip b).trans (List.sublist_append_left _ _)

/-- As many calls of the same client and bucket as the limit says were allowed in the window
that ends with this call. -/
def Earned (bs : Buckets β) (pre : List (RateAnswer β)) (e : RateAnswer β) : Prop :=
  e.ok = false → bs.limit e.bucket ≤
    (recent (bs.windowMs e.bucket) e.time (allowedAt e.ip e.bucket pre)).length

theorem earned_rateStep (h : Counted bs s tr) (hstep : rateStep bs testing s c = some (s', es)) :
    ∀ e ∈ es, Earned bs tr e := by
  intro e he hrefused
  cases hoff : unlimited testing c.req with
  | true =>
      rw [rateStep, rateOk, if_pos hoff, Option.some.injEq, Prod.mk.injEq] at hstep
      obtain ⟨-, rfl⟩ := hstep
      rw [List.mem_singleton] at he
      subst he
      cases hrefused
  | false =>
      obtain ⟨rfl, -, -⟩ := rateStep_eq (clientIp c.req) c.bucket hoff hstep
      rw [List.mem_singleton] at he
      subst he
      have hfull := of_decide_eq_false hrefused
      calc bs.limit c.bucket
        _ ≤ (s.count bs c).length := not_lt.mp hfull
        _ ≤ _ := ((h (clientIp c.req) c.bucket).filter _).length_le

/-- **No client is refused for the calls of others, and the table stays small.** However many
clients call, and whatever is evicted: a refused call comes after as many allowed calls of its
own client and bucket, within the window, as the limit says; and the table has at most 5000
keys, with at most as many times for a client and a bucket as the bucket's limit. -/
theorem refusals_earned (hlimit : ∀ b, 0 < bs.limit b)
    (h : Trace (lts (rateStep bs testing) ok) Limiter.fresh tr s) :
    Before (Earned bs) tr ∧ Bounded bs s.rateHits := by
  have hrun : (Counted bs s tr ∧ Before (Earned bs) tr) ∧ Bounded bs s.rateHits := by
    refine h.invariant (I := fun s tr => (Counted bs s tr ∧ Before (Earned bs) tr) ∧
      Bounded bs s.rateHits) ⟨⟨counted_fresh, before_nil⟩, bounded_fresh⟩ ?_
    rintro s tr es s' ⟨⟨hcounted, hearned⟩, hbounded⟩ ⟨c, -, hstep⟩
    refine ⟨⟨counted_step hcounted hstep, before_append.mpr ⟨hearned, ?_⟩⟩,
      hbounded.step (hlimit _) hstep⟩
    rintro pre e post hes hrefused
    have he := earned_rateStep hcounted hstep e (hes ▸ List.mem_append_right _ List.mem_cons_self)
    rw [allowedAt_append, recent_append, List.length_append]
    exact (he hrefused).trans (Nat.le_add_right _ _)
  exact ⟨hrun.1.2, hrun.2⟩

end Runs

theorem refusals_earned_demo : ∃ (tr : List (RateAnswer RateBucket)) (s : Limiter),
    tr.map RateAnswer.ok = [true, true, true, true, true, false, true] ∧
      Before (Earned rateBuckets) tr ∧ Bounded rateBuckets s.rateHits := by
  have hlimit : ∀ b, 0 < rateBuckets.limit b := fun b => by cases b <;> decide
  have h := trace_exec (rateStep rateBuckets false) AnyCall Limiter.fresh
    ([0, 0, 0, 0, 1000, 58999, 1].map fun elapsed => redeemCall elapsed redeemerIp)
    (okAlong_of_forall (fun _ _ => trivial) _ _) (by decide)
  exact ⟨_, _, by decide, refusals_earned hlimit h⟩

end Bartok.Bridge
