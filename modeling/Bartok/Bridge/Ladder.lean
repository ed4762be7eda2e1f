import Bartok.Bridge.Accounts

/-!
# The ladder of codes

The numbered codes unlock in order: a redeem request must name the lowest one that
is missing from the map it captures. The claim is written to that map after the
mint, when another map may have become the wallet's. So `Climbed` speaks of every
map a handler may still write to, and of the codes whose mints are in flight.
-/

namespace Bartok.Bridge

open Foundation Miden State

/-- The numbered codes of a map are the first ones of the ladder. -/
def InitialSegment (claimed : List Code) : Prop :=
  ∃ height : ℕ, ∀ i : Fin 100, .numbered i ∈ claimed ↔ i.val < height

section Segments

variable {claimed : List Code} {code : Code} {i : Fin 100}

theorem InitialSegment.of_none (h : ∀ i, .numbered i ∉ claimed) : InitialSegment claimed :=
  ⟨0, fun i => by simp [h i]⟩

/-- Claiming a code whose predecessors are all claimed. -/
theorem InitialSegment.claim (h : InitialSegment claimed)
    (hlower : ∀ i, code = .numbered i → ∀ j < i, .numbered j ∈ claimed) :
    InitialSegment (code :: claimed) := by
  obtain ⟨height, hheight⟩ := h
  cases code with
  | shared => exact ⟨height, fun j => by simp [hheight]⟩
  | numbered i =>
      refine ⟨max height (i.val + 1), fun j => ?_⟩
      -- every step below `i` is claimed, so `i` is not above the height
      have hnext : i.val ≤ height := by
        by_contra hgap
        have hlt : height < 100 := by omega
        have hmem := hlower i rfl ⟨height, hlt⟩ (Fin.lt_def.mpr (by simpa using hgap))
        exact absurd ((hheight _).mp hmem) (lt_irrefl height)
      rw [List.mem_cons, hheight, Code.numbered.injEq, Fin.ext_iff, lt_max_iff]
      omega

theorem expectedCode_some (h : expectedCode claimed = some i) :
    .numbered i ∉ claimed ∧ ∀ j < i, .numbered j ∈ claimed := by
  obtain ⟨hnot, k, hk, hget, hfirst⟩ := List.find?_eq_some_iff_getElem.mp h
  refine ⟨by simpa using hnot, fun j hj => ?_⟩
  have hik : i.val = k := by
    rw [← hget]
    simp
  have hjk : j.val < k := by
    rw [← hik]
    exact hj
  simpa using hfirst j.val hjk

theorem expectedCode_none (h : expectedCode claimed = none) : .numbered i ∈ claimed := by
  have := List.find?_eq_none.mp h i (List.mem_finRange i)
  simpa using this

end Segments

/-! ## Climbing -/

/-- Each map holds an initial segment of codes that were minted, and a mint in
flight has all the lower codes in the map it will write to. -/
structure Climbed (minted : Fin 100 → Prop) (v : WalletView) : Prop where
  segment : ∀ m ∈ v.maps, InitialSegment m
  minted : ∀ m ∈ v.maps, ∀ i, .numbered i ∈ m → minted i
  pending : ∀ pid i r, v.mints pid = some (.numbered i, r) →
    ∀ j < i, .numbered j ∈ (v.maps[r]?).getD []

section Climbed

variable {minted minted' : Fin 100 → Prop} {v : WalletView} {pid : Pid} {code : Code} {r : ℕ}

theorem Climbed.mono (h : Climbed minted v) (hle : ∀ i, minted i → minted' i) :
    Climbed minted' v :=
  ⟨h.segment, fun m hm i hi => hle i (h.minted m hm i hi), h.pending⟩

/-- What a reference to a map finds is one of the maps, or nothing. -/
theorem Climbed.deref (h : Climbed minted v) :
    InitialSegment ((v.maps[r]?).getD []) ∧
      ∀ i, .numbered i ∈ (v.maps[r]?).getD [] → minted i := by
  cases hr : v.maps[r]? with
  | none => exact ⟨.of_none (by simp), by simp⟩
  | some m =>
      have hm : m ∈ v.maps := List.mem_of_getElem? hr
      exact ⟨h.segment m hm, h.minted m hm⟩

theorem Climbed.claimed (h : Climbed minted v) :
    InitialSegment v.claimed ∧ ∀ i, .numbered i ∈ v.claimed → minted i := by
  unfold WalletView.claimed
  split
  · exact h.deref
  · split
    · exact ⟨.of_none (by simp), by simp⟩
    · exact ⟨.of_none (by simp), by simp⟩

/-- The map a request captures holds what it has read. -/
theorem captured_map : (v.capture.1.maps[v.capture.2]?).getD [] = v.claimed := by
  unfold WalletView.capture
  split
  · next r hr => simp [WalletView.claimed, hr]
  · simp

theorem Climbed.capture (h : Climbed minted v) : Climbed minted v.capture.1 := by
  unfold WalletView.capture
  split
  · exact h
  · refine ⟨fun m hm => ?_, fun m hm => ?_, fun pid i r hpid j hj => ?_⟩
    · rcases List.mem_append.mp hm with hm | hm
      · exact h.segment m hm
      · rw [List.mem_singleton.mp hm]
        exact h.claimed.1
    · rcases List.mem_append.mp hm with hm | hm
      · exact h.minted m hm
      · rw [List.mem_singleton.mp hm]
        exact h.claimed.2
    · have hj := h.pending pid i r hpid j hj
      cases hr : v.maps[r]? with
      | none => simp [hr] at hj
      | some m =>
          obtain ⟨hlt, hget⟩ := List.getElem?_eq_some_iff.mp hr
          simpa [List.getElem?_append_left hlt, hr] using hj

theorem Climbed.settle (h : Climbed minted v) : Climbed minted (v.mint pid none) :=
  ⟨h.segment, h.minted, fun q i r hq => h.pending q i r (mints_none hq).2⟩

theorem Climbed.start (h : Climbed minted v)
    (horder : code ≠ .shared → (expectedCode v.claimed).map Code.numbered = some code) :
    Climbed minted (v.capture.1.mint pid (some (code, v.capture.2))) := by
  refine ⟨h.capture.segment, h.capture.minted, fun q i r hq => ?_⟩
  rw [mints_mint] at hq
  split at hq
  · obtain ⟨rfl, rfl⟩ := Prod.mk.inj (Option.some.inj hq)
    obtain ⟨i', hexpected, hi'⟩ := Option.map_eq_some_iff.mp (horder (by simp))
    obtain rfl := Code.numbered.inj hi'
    show ∀ j < i', Code.numbered j ∈ (v.capture.1.maps[v.capture.2]?).getD []
    rw [captured_map]
    exact (expectedCode_some hexpected).2
  · exact h.capture.pending q i r hq

/-- A successful mint writes its code to the map it captured, where the lower
codes still are. -/
theorem Climbed.claim (h : Climbed minted v) (hpid : v.mints pid = some (code, r))
    (hcode : ∀ i, code = .numbered i → minted i) : Climbed minted (v.claim code r) := by
  have hlower : ∀ i, code = .numbered i → ∀ j < i, .numbered j ∈ (v.maps[r]?).getD [] := by
    rintro i rfl
    exact h.pending pid i r hpid
  have hmaps : ∀ m ∈ (v.claim code r).maps, m ∈ v.maps ∨ ∃ m', v.maps[r]? = some m' ∧
      m = code :: m' := by
    intro m hm
    obtain ⟨k, hk⟩ := List.mem_iff_getElem?.mp hm
    have hk : (v.maps.modify r fun codes => code :: codes)[k]? = some m := hk
    rw [List.getElem?_modify] at hk
    obtain ⟨m', hm', heq⟩ := Option.map_eq_some_iff.mp hk
    by_cases hr : r = k
    · subst hr
      exact .inr ⟨m', hm', by simpa using heq.symm⟩
    · rw [if_neg hr] at heq
      exact .inl (by rw [← heq]; exact List.mem_of_getElem? hm')
  refine ⟨fun m hm => ?_, fun m hm i hi => ?_, fun q i r' hq j hj => ?_⟩
  · rcases hmaps m hm with hm | ⟨m', hm', rfl⟩
    · exact h.segment m hm
    · refine (h.segment m' (List.mem_of_getElem? hm')).claim fun i hi j hj => ?_
      simpa [hm'] using hlower i hi j hj
  · rcases hmaps m hm with hm | ⟨m', hm', rfl⟩
    · exact h.minted m hm i hi
    · rcases List.mem_cons.mp hi with hi | hi
      · exact hcode i hi.symm
      · exact h.minted m' (List.mem_of_getElem? hm') i hi
  · have hj := h.pending q i r' hq j hj
    show Code.numbered j ∈ ((v.maps.modify r fun codes => code :: codes)[r']?).getD []
    rw [List.getElem?_modify]
    cases hr : v.maps[r']? with
    | none => simp [hr] at hj
    | some m =>
        rw [hr] at hj
        by_cases hrr : r = r'
        · simpa [hrr] using .inr hj
        · simpa [hrr] using hj

end Climbed

/-! ## Steps -/

/-- The codes `users.json` has for a wallet, if it has any. -/
def Disk.savedCodes (disk : Disk) (w : WalletId) : List (List Code) :=
  ((disk.users.getD fun _ => none) w |>.bind SavedUser.codes).toList

/-- A mint of the code for the wallet has succeeded before the process started, or
in the run. -/
def MintedBefore (disk : Disk) (w : WalletId) (tr : List Event) (i : Fin 100) : Prop :=
  (∃ m ∈ disk.savedCodes w, .numbered i ∈ m) ∨ ∃ pid, .fundEnd pid w (.numbered i) true ∈ tr

/-- A wallet has climbed the ladder in memory, and as far as it is saved. -/
structure Ladder (minted : Fin 100 → Prop) (w : WalletId) (st : State) : Prop where
  climbed : Climbed minted (st.wallet w)
  saved : ∀ m ∈ st.disk.savedCodes w, InitialSegment m ∧ ∀ i, .numbered i ∈ m → minted i

section Steps

variable {st : State} {w : WalletId} {minted minted' : Fin 100 → Prop} {i : Input}
  {r : State × List Event}

theorem Ladder.mono (h : Ladder minted w st) (hle : ∀ i, minted i → minted' i) :
    Ladder minted' w st :=
  ⟨h.climbed.mono hle, fun m hm => ⟨(h.saved m hm).1, fun i hi => hle i ((h.saved m hm).2 i hi)⟩⟩

/-- What a mint that succeeded in this step adds. -/
def MintedNow (minted : Fin 100 → Prop) (w : WalletId) (es : List Event) (i : Fin 100) : Prop :=
  minted i ∨ ∃ pid, .fundEnd pid w (.numbered i) true ∈ es

theorem climbed_step (h : Climbed minted (st.wallet w)) (hf : st.Fresh) (hone : OneProcess st i)
    (hi : step st i = some r) : Climbed (MintedNow minted w r.2) (r.1.wallet w) := by
  have h : Climbed (MintedNow minted w r.2) (st.wallet w) := h.mono fun i hi => .inl hi
  cases hact : i.act.mints with
  | false => rw [(still_step (w := w) hf hone hi hact).1]; exact h
  | true =>
      obtain ⟨act, wr⟩ := i
      cases steps_of_step hi with
      | redeem u c =>
          rcases redeem_cases (w := w) u c with hstill | ⟨code, -, ⟨-, -, horder⟩, heq⟩
          · rw [hstill.1]
            exact h
          · rw [heq, wallet_started hf u code]
            rw [heq] at h
            split
            · next hu =>
                subst hu
                exact h.start (by rw [← readClaimed_eq]; exact horder)
            · exact h
      | @funded pid u code claimed ok hp =>
          obtain ⟨rest, hevents, -⟩ := funded_events st pid u code claimed ok wr
          rw [wallet_returned hp ok wr]
          split
          · next hu =>
              subst hu
              apply Climbed.settle
              cases ok with
              | false => exact h
              | true =>
                  have hmint : (st.wallet w).mints pid = some (code, claimed) := by
                    simp [State.wallet, hp, Proc.mint]
                  apply h.claim hmint
                  rintro i rfl
                  refine .inr ⟨pid, ?_⟩
                  rw [hevents]
                  exact List.mem_cons_self
          · exact h
      | _ => cases hact

theorem savedCodes_saved {m : List Code}
    (hm : m ∈ Disk.savedCodes { st.disk with users := some st.savedUsers } w) :
    ∃ r : ℕ, m = ((st.wallet w).maps[r]?).getD [] := by
  simp only [Disk.savedCodes, Option.getD_some, savedUsers, Option.mem_toList, Option.bind_map,
    Option.bind_eq_some_iff] at hm
  obtain ⟨u, -, hcodes⟩ := hm
  obtain ⟨r, -, rfl⟩ := Option.map_eq_some_iff.mp hcodes
  exact ⟨r, rfl⟩

theorem savedCodes_eq {disk disk' : Disk} (h : disk'.users = disk.users) :
    disk'.savedCodes w = disk.savedCodes w := by
  rw [Disk.savedCodes, h]
  rfl

theorem ladder_boot {disk : Disk} {now : ℕ} {nextPid : Pid} {chain : EscrowNote → NoteStatus}
    (h : ∀ m ∈ disk.savedCodes w, InitialSegment m ∧ ∀ i, .numbered i ∈ m → minted i) :
    Ladder minted w (boot disk now nextPid chain) :=
  ⟨⟨fun m hm => (h m hm).1, fun m hm => (h m hm).2, by simp [State.wallet, boot]⟩, h⟩

theorem ladder_step (h : Ladder minted w st) (hf : st.Fresh) (hi : step st i = some r) :
    Ladder (MintedNow minted w r.2) w r.1 := by
  by_cases hone : OneProcess st i
  · have hclimbed := climbed_step h.climbed hf hone hi
    refine ⟨hclimbed, fun m hm => ?_⟩
    rcases (records_step hone hi).disk with hdisk | hdisk
    · rw [savedCodes_eq hdisk] at hm
      exact ((h.mono fun i hi => .inl hi).saved m hm)
    · have hm : m ∈ Disk.savedCodes { r.1.disk with users := some r.1.savedUsers } w := by
        rw [← savedCodes_eq hdisk]
        exact hm
      obtain ⟨r', rfl⟩ := savedCodes_saved hm
      exact hclimbed.deref
  · have hact : i.act = .restart := by simpa [oneProcess_iff] using hone
    obtain rfl : (_, []) = r := by simpa [step, hact] using hi
    exact ladder_boot fun m hm => (h.mono fun i hi => .inl hi).saved m hm

end Steps

/-! ## Runs -/

/-- Every code of a mint that starts has all the lower ones minted before. -/
def LowerMinted (disk : Disk) (pre : List Event) : Event → Prop
  | .fundStart _ w (.numbered i) => ∀ j < i, MintedBefore disk w pre j
  | _ => True

section Runs

variable {disk : Disk} {now : ℕ} {nextPid : Pid} {chain : EscrowNote → NoteStatus} {st : State}
  {tr : List Event} {w : WalletId} {i : Input} {r : State × List Event}

theorem mintedBefore_append {es : List Event} {j : Fin 100} :
    MintedNow (MintedBefore disk w tr) w es j ↔ MintedBefore disk w (tr ++ es) j := by
  simp only [MintedNow, MintedBefore, List.mem_append, exists_or, or_assoc]

/-- The event of a mint that starts, with the order check it has passed. -/
theorem fundStart_of_step {pid : Pid} {code : Code} (hi : step st i = some r)
    (he : .fundStart pid w code ∈ r.2) :
    r.2 = [.fundStart pid w code] ∧
      (code ≠ .shared → (expectedCode (st.readClaimed w)).map Code.numbered = some code) := by
  obtain ⟨act, wr⟩ := i
  have hkind := kind_step hi _ he
  cases steps_of_step hi with
  | redeem u c =>
      rcases redeem_cases (w := w) u c with hstill | ⟨code', -, ⟨-, -, horder⟩, heq⟩
      · cases hstill.2 _ he
      · rw [heq] at he ⊢
        cases List.mem_singleton.mp he
        exact ⟨rfl, horder⟩
  | @funded pid' u code' claimed ok hp =>
      obtain ⟨rest, hevents, hplain⟩ := funded_events st pid' u code' claimed ok wr
      have he : .fundStart pid w code ∈ (st.funded pid' u code' claimed ok wr).2 := he
      rw [hevents] at he
      rcases List.mem_cons.mp he with he | he
      · cases he
      · cases hplain _ he
  | _ => simp [Event.kind, Action.kinds] at hkind

/-- Every run climbs the ladder of each wallet. -/
theorem ladder_run (hdisk : ∀ w, ∀ m ∈ disk.savedCodes w, InitialSegment m)
    (h : Trace (lts step ByAccounts) (boot disk now nextPid chain) tr st) :
    st.Fresh ∧ (∀ w, Ladder (MintedBefore disk w tr) w st) ∧ Before (LowerMinted disk) tr := by
  refine h.invariant (I := fun s tr =>
    s.Fresh ∧ (∀ w, Ladder (MintedBefore disk w tr) w s) ∧ Before (LowerMinted disk) tr)
    ⟨fresh_boot _ _ _ _, fun w => ladder_boot fun m hm =>
      ⟨hdisk w m hm, fun i hi => .inl ⟨m, hm, hi⟩⟩, before_nil⟩ ?_
  rintro s tr es s' ⟨hf, hladder, hbefore⟩ ⟨i, -, hi⟩
  refine ⟨fresh_step hf hi, fun w => ?_,
    before_append.mpr ⟨hbefore, before_of_forall fun e he pre => ?_⟩⟩
  · exact (ladder_step (hladder w) hf hi).mono fun j => mintedBefore_append.mp
  · unfold LowerMinted
    split
    · next pid w code =>
        intro j hj
        have horder := (fundStart_of_step hi he).2 (by simp)
        obtain ⟨k, hexpected, hk⟩ := Option.map_eq_some_iff.mp horder
        obtain rfl := Code.numbered.inj hk
        -- the lower codes are in the wallet's map, and so were minted
        have hmem := (expectedCode_some hexpected).2 j hj
        rw [readClaimed_eq] at hmem
        have hminted := (hladder w).climbed.claimed.2 j hmem
        exact hminted.imp id fun ⟨q, hq⟩ => ⟨q, List.mem_append_left _ hq⟩
    · trivial

/-- A request that is told to wait is told for which code. -/
theorem wrongOrder_names {u : WalletId} {c : String} {pid : Pid} {next : Option (Fin 100)}
    (he : .done pid (.wrongOrder next) ∈ (st.redeem u c).2) :
    ∃ k, next = some k ∧ .numbered k ∉ st.readClaimed u ∧
      .numbered k ∉ (st.redeem u c).1.readClaimed u := by
  have hread : (st.arrive.setUser u (st.arrive.userOr u)).readClaimed u = st.readClaimed u := by
    rw [readClaimed_eq, readClaimed_eq]
    exact congrArg WalletView.claimed (wallet_setUser rfl rfl)
  unfold State.redeem at he ⊢
  dsimp only at he ⊢
  rw [hread] at he ⊢
  split at he
  · simp at he
  · next hw =>
      rw [if_neg hw]
      split at he
      · simp at he
      · next code _ =>
          split at he
          · simp at he
          · next hnew =>
              rw [if_neg hnew]
              split at he
              · next hwrong =>
                  rw [if_pos hwrong, hread]
                  obtain ⟨-, hnext⟩ : pid = st.nextPid ∧ next = expectedCode (st.readClaimed u) := by
                    simpa using he
                  cases hexpected : expectedCode (st.readClaimed u) with
                  | none =>
                      -- with the whole ladder claimed, the code would have been found claimed
                      cases code with
                      | shared => exact absurd rfl hwrong.1
                      | numbered k => exact absurd (expectedCode_none hexpected) hnew
                  | some k =>
                      have hfree := (expectedCode_some hexpected).1
                      exact ⟨k, hnext.trans hexpected, hfree, hfree⟩
              · simp at he

/-- **The ladder is climbed in order**, from a store in which it has been, by wallets that
are account ids. -/
theorem ladder_in_order (hdisk : ∀ w, ∀ m ∈ disk.savedCodes w, InitialSegment m)
    (h : Trace (lts step ByAccounts) (boot disk now nextPid chain) tr st) :
    (∀ w, InitialSegment (st.readClaimed w) ∧ ∀ m ∈ st.disk.savedCodes w, InitialSegment m) ∧
      Before (LowerMinted disk) tr ∧
      ∀ w c wr r, step st ⟨.redeem w c, wr⟩ = some r →
        ∀ pid next, .done pid (.wrongOrder next) ∈ r.2 →
          ∃ k, next = some k ∧ .numbered k ∉ st.readClaimed w ∧
            .numbered k ∉ r.1.readClaimed w := by
  obtain ⟨-, hladder, hbefore⟩ := ladder_run hdisk h
  refine ⟨fun w => ⟨?_, fun m hm => ((hladder w).saved m hm).1⟩, hbefore, ?_⟩
  · rw [readClaimed_eq]
    exact (hladder w).climbed.claimed.1
  · intro w c wr r hi pid next he
    obtain rfl : st.redeem w c = r := Option.some.inj hi
    exact wrongOrder_names he

end Runs

/-! A wallet that has claimed `_00` asks for `_02` too early, and again after `_01`
has been minted. -/

def climbedDisk : Disk :=
  ⟨none, some fun w => if w = "0xb0b" then some ⟨none, 0, some [.numbered ⟨0, by decide⟩], false⟩
    else none, none⟩

def climb : List Action :=
  [.redeem "0xb0b" "ILOVEBARTOK_01", .redeem "0xb0b" "ILOVEBARTOK_02", .funded 0 true,
    .redeem "0xb0b" "ILOVEBARTOK_02"]

theorem climbedDisk_segments : ∀ w, ∀ m ∈ climbedDisk.savedCodes w, InitialSegment m := by
  intro w m hm
  by_cases hw : w = "0xb0b"
  · subst hw
    obtain rfl : m = [.numbered 0] := by simpa [Disk.savedCodes, climbedDisk] using hm
    refine ⟨1, fun i => ?_⟩
    rw [List.mem_singleton, Code.numbered.injEq, Fin.ext_iff]
    exact Nat.lt_one_iff.symm
  · simp [Disk.savedCodes, climbedDisk, hw] at hm

theorem ladder_in_order_demo : ∃ (tr : List Event) (st : State),
    .done 1 (.wrongOrder (some 1)) ∈ tr ∧ .fundStart 2 "0xb0b" (.numbered 2) ∈ tr ∧
      InitialSegment (st.readClaimed "0xb0b") ∧ Before (LowerMinted climbedDisk) tr :=
  have h := trace_exec step ByAccounts (boot climbedDisk 1 0 fun _ => .unfunded) (written climb)
    (by decide) (by decide)
  ⟨_, _, by decide, by decide, ((ladder_in_order climbedDisk_segments h).1 "0xb0b").1,
    (ladder_in_order climbedDisk_segments h).2.1⟩

end Bartok.Bridge
