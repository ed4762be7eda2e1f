import Bartok.Bridge.Settlement

/-!
# No free reply

The charge of a settlement is the sum of the session's charges when the
settlement starts. `Tally` compares it with the replies the session has been
sent: they agree as long as no reply comes in while a settlement is in progress.
`/api/chat` only checks `settled`, which is set when the settlement is over.
-/

namespace Bartok.Bridge

open Foundation Miden State

/-! ## Where replies come from -/

def Event.isReply : Event → Bool
  | .done _ (.reply _ _ _ _) => true
  | _ => false

section Replies

variable {st : State} {pid : Pid} {sid : SessionId} {w : Writes} {r : State × List Event}

theorem kind_of_isReply {e : Event} (h : e.isReply = true) : e.kind = .reply := by
  unfold Event.isReply at h
  split at h
  · rfl
  · cases h

/-- Only a handler back from `runAnswer` answers a chat. -/
theorem reply_of_step {i : Input} {e : Event} (h : step st i = some r) (he : e ∈ r.2)
    (hreply : e.isReply = true) :
    ∃ pid sid prompt tier spent a, i.act = .answered pid (.ok a) ∧
      st.procs pid = some (.runAnswer sid prompt tier spent) ∧
      e ∈ (st.chatAnswered pid sid prompt tier spent (.ok a) i.writes).2 := by
  have hkind := kind_of_isReply hreply
  obtain ⟨act, w⟩ := i
  rcases kind_step h e he with hplain | hmem
  · rw [hkind] at hplain
    cases hplain
  · rw [hkind] at hmem
    cases steps_of_step h with
    | answered res hp =>
        cases res with
        | error message =>
            rw [List.mem_singleton.mp he] at hreply
            cases hreply
        | ok a => exact ⟨_, _, _, _, _, a, rfl, hp, he⟩
    | _ => simp [Action.kinds] at hmem

/-- What a delivered reply was checked for. -/
theorem reply_delivered {prompt : JsString} {tier : String} {spent : ℕ} {a : Answer} {e : Event}
    (he : e ∈ (st.chatAnswered pid sid prompt tier spent (.ok a) w).2)
    (hreply : e.isReply = true) :
    ∃ slot, st.sessions.slot? sid = some slot ∧ slot.val.settled = false ∧
      spent + a.charge ≤ slot.val.budget ∧
      e = .done pid (.reply sid a (spent + a.charge) (slot.val.budget - (spent + a.charge))) := by
  unfold chatAnswered at he
  dsimp only at he
  split at he
  · rw [List.mem_singleton.mp he] at hreply
    cases hreply
  · cases he
  · next a' s ha hs =>
      cases ha
      obtain ⟨slot, hslot, rfl⟩ := obj?_eq_some hs
      split at he
      · rw [List.mem_singleton.mp he] at hreply
        cases hreply
      · next hfits =>
          split at he
          · rw [List.mem_singleton.mp he] at hreply
            cases hreply
          · next hopen =>
              refine ⟨slot, hslot, by simpa using hopen, Nat.le_of_not_lt hfits, ?_⟩
              unfold deliver at he
              dsimp only at he
              split at he
              · rw [List.mem_singleton.mp he] at hreply
                cases hreply
              · rcases List.mem_cons.mp he with rfl | he
                · cases hreply
                · exact List.mem_singleton.mp he

end Replies

/-! ## Charges and replies of one session -/

/-- What a successful answer on `sid` charges. -/
def Event.replyCharge (sid : SessionId) : Event → ℕ
  | .done _ (.reply s a _ _) => if s = sid then a.charge else 0
  | _ => 0

/-- The charges of all the replies on `sid`. -/
def replied (sid : SessionId) (tr : List Event) : ℕ := (tr.map (Event.replyCharge sid)).sum

/-- The charge with which a `settle_session` run for `sid` succeeded. -/
def Event.settledCharge (sid : SessionId) : Event → Option ℕ
  | .settleEnd _ s charge run =>
      match run.verdict with
      | .settled _ => if s = sid then some charge else none
      | _ => none
  | _ => none

def SessionView.total (v : SessionView) : ℕ := v.slot.elim 0 fun slot => slot.val.totalCharge

/-- The session's charges are what its replies were charged, a settlement in
progress takes all of them, and so did one that succeeded. -/
structure Tally (sid : SessionId) (base : ℕ) (v : SessionView) (tr : List Event) : Prop where
  total : v.total = base + replied sid tr
  held : ∀ pid h, v.holds pid = some h → h.charge = v.total
  settled : ∀ e ∈ tr, ∀ c ∈ e.settledCharge sid, c = base + replied sid tr ∧
    ∃ slot, v.slot = some slot ∧ slot.live = false

section Tally

variable {v v' : SessionView} {sid : SessionId} {base : ℕ} {tr es : List Event}
  {f : Session → Session} {pid : Pid} {h : Option Hold} {safe : Bool}

theorem replied_append : replied sid (tr ++ es) = replied sid tr + replied sid es := by
  simp [replied]

theorem total_put (hf : ∀ s, (f s).charges = s.charges) : (v.put f).total = v.total := by
  cases hslot : v.slot with
  | none => simp [SessionView.total, SessionView.put, hslot]
  | some slot => simp [SessionView.total, SessionView.put, hslot, Session.totalCharge, hf]

theorem total_charge {slot : Slot SessionId Session} (hslot : v.slot = some slot) {a : Answer}
    {now : ℕ} {prompt : JsString} :
    ((v.put (pushCharge a now)).put (pushTurns prompt a)).total = v.total + a.charge := by
  rw [total_put (f := pushTurns prompt a) fun _ => rfl]
  simp [SessionView.total, SessionView.put, hslot, Session.totalCharge, pushCharge]

@[simp] theorem total_hold : (v.hold pid h).total = v.total := rfl

@[simp] theorem total_land {note : EscrowNote} {run : SettleRun} :
    (v.land note run).total = v.total := by
  simp [SessionView.total]

@[simp] theorem total_delete : v.delete.total = v.total := by
  cases hslot : v.slot <;> simp [SessionView.total, SessionView.delete, hslot]

/-- A step that neither replies nor settles successfully. -/
theorem Tally.keep (ht : Tally sid base v tr) (hreply : replied sid es = 0)
    (hes : ∀ e ∈ es, e.settledCharge sid = none) (htotal : v'.total = v.total)
    (hheld : ∀ pid h, v'.holds pid = some h → h.charge = v.total)
    (hdead : (∃ slot, v.slot = some slot ∧ slot.live = false) →
      ∃ slot, v'.slot = some slot ∧ slot.live = false) : Tally sid base v' (tr ++ es) := by
  have hsame : replied sid (tr ++ es) = replied sid tr := by rw [replied_append, hreply]; rfl
  refine ⟨?_, fun pid h hh => ?_, fun e he c hc => ?_⟩
  · rw [htotal, hsame, ht.total]
  · rw [htotal, hheld pid h hh]
  · rw [hsame]
    rcases List.mem_append.mp he with he | he
    · obtain ⟨hc, hd⟩ := ht.settled e he c hc
      exact ⟨hc, hdead hd⟩
    · rw [hes e he] at hc
      cases hc

/-- Changing one hold keeps the charges if the new hold has the right one. -/
theorem Tally.rehold (ht : Tally sid base v tr) (hsame : v'.holds = v.holds)
    (hnew : ∀ h', h = some h' → h'.charge = v.total) :
    ∀ q h', (v'.hold pid h).holds q = some h' → h'.charge = v.total := by
  intro q h' hq
  by_cases hqp : q = pid
  · subst hqp
    simp only [SessionView.hold, Function.update_self] at hq
    exact hnew h' hq
  · simp only [SessionView.hold, Function.update_of_ne hqp, hsame] at hq
    exact ht.held q h' hq

theorem settledCharge_of_givesUp {run : SettleRun} {charge : ℕ}
    (hrun : givesUp true run.verdict = true) :
    (Event.settleEnd pid sid charge run).settledCharge sid = none := by
  cases hv : run.verdict <;> simp_all [Event.settledCharge, givesUp]

theorem settledCharge_of_wedged {run : SettleRun} {charge : ℕ} (hrun : run.verdict = .wedged) :
    (Event.settleEnd pid sid charge run).settledCharge sid = none := by
  simp [Event.settledCharge, hrun]

/-- A reply on an open session: it is charged, and what holds the session does
not see it. -/
theorem Tally.reply (hv : Exclusive v) (ht : Tally sid base v tr)
    {slot : Slot SessionId Session} (hslot : v.slot = some slot)
    (hopen : slot.val.settled = false) {a : Answer} {prompt : JsString} {now total remaining : ℕ}
    (hfree : ∀ q h, v.holds q = some h → a.charge = 0) :
    Tally sid base ((v.put (pushCharge a now)).put (pushTurns prompt a))
      (tr ++ [.done pid (.reply sid a total remaining)]) := by
  have hcharge : replied sid [.done pid (.reply sid a total remaining)] = a.charge := by
    simp [replied, Event.replyCharge]
  refine ⟨?_, fun q h hh => ?_, fun e he c hc => ?_⟩
  · rw [total_charge hslot, ht.total, replied_append, hcharge, Nat.add_assoc]
  · rw [total_charge hslot, hfree q h hh]
    exact ht.held q h hh
  · rcases List.mem_append.mp he with he | he
    · -- an earlier success would have evicted the session
      obtain ⟨-, s, hs, hlive⟩ := ht.settled e he c hc
      rw [hslot] at hs
      have := hv.settled_eq slot hslot
      rw [hopen, Option.some.inj hs, hlive] at this
      cases this
    · rw [List.mem_singleton.mp he] at hc
      cases hc

/-- The run that ends the session: if it succeeded, it took all the charges. -/
theorem Tally.close (ht : Tally sid base v tr) {charge : ℕ} {run : SettleRun}
    {buyerId : WalletId} {closing : List Event} (hcharge : charge = v.total)
    (hrun : closingEvents sid buyerId run.verdict = some closing) (htotal : v'.total = v.total)
    (hheld : ∀ q h, v'.holds q = some h → h.charge = v.total)
    (hdead : ∃ slot, v'.slot = some slot ∧ slot.live = false) :
    Tally sid base v' (tr ++ .settleEnd pid sid charge run :: closing) := by
  have hreply : replied sid (.settleEnd pid sid charge run :: closing) = 0 := by
    rcases closing_cases hrun with rfl | ⟨file, rfl⟩ <;> simp [replied, Event.replyCharge]
  have hsame : replied sid (tr ++ .settleEnd pid sid charge run :: closing) =
      replied sid tr := by rw [replied_append, hreply]; rfl
  have hclosing : ∀ e ∈ closing, e.settledCharge sid = none := by
    rcases closing_cases hrun with rfl | ⟨file, rfl⟩ <;> simp [Event.settledCharge]
  refine ⟨?_, fun q h hh => ?_, fun e he c hc => ⟨?_, hdead⟩⟩
  · rw [htotal, hsame, ht.total]
  · rw [htotal, hheld q h hh]
  · rw [hsame]
    rcases List.mem_append.mp he with he | he
    · exact (ht.settled e he c hc).1
    · rcases List.mem_cons.mp he with rfl | he
      · have hc : c = charge := by
          unfold Event.settledCharge at hc
          grind
        rw [hc, hcharge, ht.total]
      · rw [hclosing e he] at hc
        cases hc

/-- What one step preserves, if a reply that costs something comes in only
while nothing holds the session. -/
theorem SessionStep.tally (hv : Exclusive v) (hstep : SessionStep sid true v es v')
    (htimely : ∀ e ∈ es, 0 < e.replyCharge sid → ∀ pid, v.holds pid = none)
    (ht : Tally sid base v tr) : Tally sid base v' (tr ++ es) := by
  have hdead := hstep.dead
  have hnil : ∀ e ∈ ([] : List Event), e.settledCharge sid = none := by simp
  cases hstep with
  | world hnow hchain => exact ht.keep rfl hnil rfl ht.held hdead
  | create buyerId tier budget params hslot =>
      have hzero : v.total = 0 := by simp [SessionView.total, hslot]
      exact ht.keep rfl hnil hzero.symm ht.held hdead
  | @use _ f hf =>
      have hcharges : ∀ s, (f s).charges = s.charges := by
        rcases hf with rfl | rfl <;> exact fun _ => rfl
      exact ht.keep rfl hnil (total_put hcharges) ht.held hdead
  | @reply _ slot prompt a total remaining pid hslot hopen =>
      apply ht.reply hv hslot hopen
      intro q h hh
      by_contra hpos
      have hnone := htimely _ (List.mem_singleton_self _)
        (by simpa [Event.replyCharge] using Nat.pos_of_ne_zero hpos) q
      rw [hnone] at hh
      cases hh
  | lost hslot hopen hsafe => cases hsafe
  | @start _ slot note f pid hslot hlive hopen hfree hnote hf =>
      have hcharges : ∀ s, (f s).charges = s.charges := by
        rcases hf with rfl | rfl <;> exact fun _ => rfl
      refine ht.keep rfl (by simp [Event.settledCharge]) (total_put hcharges)
        (ht.rehold rfl fun h' hh => ?_) hdead
      rw [← Option.some.inj hh]
      simp [SessionView.total, hslot]
  | wait pid hslot hnote hhold hland hrun =>
      refine ht.keep rfl (by simp [settledCharge_of_wedged hrun]) total_land
        (ht.rehold holds_land fun h' hh => ?_) hdead
      have hcharge := ht.held pid _ hhold
      rwa [← Option.some.inj hh]
  | retry pid hslot hnote hhold =>
      refine ht.keep rfl (by simp [Event.settledCharge]) rfl (ht.rehold rfl fun h' hh => ?_) hdead
      have hcharge := ht.held pid _ hhold
      rwa [← Option.some.inj hh]
  | @giveUp _ slot charge note run f pid hslot hnote hhold hland hrun hf =>
      have hcharges : ∀ s, (f s).charges = s.charges := by
        rcases hf with rfl | ⟨rfl, -⟩ <;> exact fun _ => rfl
      exact ht.keep rfl (by simp [settledCharge_of_givesUp hrun])
        ((total_put hcharges).trans total_land) (ht.rehold holds_land fun h' hh => by cases hh) hdead
  | @close _ slot charge note run closing f pid hslot hnote hhold hland hrun hf =>
      have hcharges : ∀ s, (f s).charges = s.charges := by
        rcases hf with rfl | rfl <;> exact fun _ => rfl
      refine ht.close (ht.held pid _ hhold) hrun ?_
        (ht.rehold holds_land fun h' hh => by cases hh) ⟨_, slot_close hslot, rfl⟩
      rw [total_hold, total_put hcharges, total_delete, total_put (f := markSettled) fun _ => rfl,
        total_land]

end Tally

/-! ## Runs -/

/-- What the session had been charged when the process started. -/
def restoredCharge (disk : Disk) (sid : SessionId) : ℕ :=
  (((restoreSessions disk).get? sid).map Session.totalCharge).getD 0

/-- **No free reply**, for one session and the events of a run: a settlement
that succeeds has charged all the replies of the run and of earlier processes,
and there is no reply on a session after its end. -/
def NoFreeReply (disk : Disk) (sid : SessionId) (tr : List Event) : Prop :=
  (∀ e ∈ tr, ∀ c ∈ e.settledCharge sid, c = restoredCharge disk sid + replied sid tr) ∧
    tr.Pairwise fun e e' => e.endsSettling sid = true → e'.replies sid = false

instance (disk : Disk) (sid : SessionId) (tr : List Event) : Decidable (NoFreeReply disk sid tr) :=
  inferInstanceAs (Decidable (_ ∧ _))

/-- The answer that comes back, with the session that waits for it and what it
had spent when it asked. -/
def State.answering (st : State) : Action → Option (SessionId × ℕ × Answer)
  | .answered pid (.ok a) =>
      match st.procs pid with
      | some (.runAnswer sid _ _ spent) => some (sid, spent, a)
      | _ => none
  | _ => none

/-- No answer that costs something and fits the hold comes back while a
settlement of its session is in progress. -/
def TimelyReply (st : State) (i : Input) : Prop :=
  ∀ x ∈ st.answering i.act, ∀ s ∈ st.sessions.obj? x.1, x.2.1 + x.2.2.charge ≤ s.budget →
    0 < x.2.2.charge → ∀ pid < st.nextPid, ¬ st.Settles x.1 pid

instance (st : State) (i : Input) : Decidable (TimelyReply st i) :=
  inferInstanceAs (Decidable (∀ x ∈ _, ∀ s ∈ _, _ → _ → ∀ pid < _, _))

/-- Writes succeed and replies are timely. -/
def Timely (st : State) (i : Input) : Prop := AllWritten st i ∧ TimelyReply st i

instance (st : State) (i : Input) : Decidable (Timely st i) := inferInstanceAs (Decidable (_ ∧ _))

/-- A step of a session in which a reply that costs something finds nothing
holding the session. -/
def TimelyStep (sid : SessionId) (v : SessionView) (es : List Event) (v' : SessionView) : Prop :=
  SessionStep sid true v es v' ∧
    ∀ e ∈ es, 0 < e.replyCharge sid → ∀ pid, v.holds pid = none

section Runs

variable {disk : Disk} {now : ℕ} {nextPid : Pid} {chain : EscrowNote → NoteStatus}
  {sid : SessionId} {st : State} {tr es : List Event} {v v' : SessionView}

/-- Without a new settlement a session that nothing holds stays so. -/
theorem SessionStep.unheld (hstep : SessionStep sid true v es v')
    (hes : ∀ e ∈ es, e.startsSettling sid = false) (hnone : ∀ pid, v.holds pid = none) :
    ∀ pid, v'.holds pid = none := by
  cases hstep with
  | start => simp [Event.startsSettling] at hes
  | retry => simp [Event.startsSettling] at hes
  | wait pid _ _ hhold => simp [hnone pid] at hhold
  | giveUp pid _ _ hhold => simp [hnone pid] at hhold
  | close pid _ _ hhold => simp [hnone pid] at hhold
  | _ => exact hnone

theorem not_starts_of_kind {e : Event} (h : e.kind ≠ .settleStart) :
    e.startsSettling sid = false := by
  unfold Event.startsSettling
  split
  · exact absurd rfl h
  · rfl

theorem not_starts_chatAnswered {pid : Pid} {sid' : SessionId} {prompt : JsString} {tier : String}
    {spent : ℕ} {a : Answer} {w : Writes} :
    ∀ e ∈ (st.chatAnswered pid sid' prompt tier spent (.ok a) w).2,
      e.startsSettling sid = false := by
  intro e he
  apply not_starts_of_kind
  intro hstart
  rcases (handled_chatAnswered (.ok a)).kinds e he with hplain | hmem
  · cases hplain.symm.trans hstart
  · cases (List.mem_singleton.mp hmem).symm.trans hstart

theorem isReply_of_replyCharge {e : Event} (h : 0 < e.replyCharge sid) : e.isReply = true := by
  unfold Event.replyCharge at h
  split at h
  · rfl
  · cases h

theorem timelyStep_of_step {i : Input} {r : State × List Event} (hf : st.Fresh)
    (hok : Timely st i) (hi : step st i = some r) :
    r.1.Fresh ∧ Trace (TimelyStep sid) (st.view sid) (r.2.filter (Event.about sid))
      (r.1.view sid) := by
  obtain ⟨⟨hone, hw⟩, htimely⟩ := hok
  obtain ⟨hf', hsees⟩ := step_sees sid hf hone hi
  rw [hw] at hsees
  refine ⟨hf', ?_⟩
  by_cases hpos : ∃ e ∈ r.2.filter (Event.about sid), 0 < e.replyCharge sid
  · obtain ⟨e, he, hcharge⟩ := hpos
    obtain ⟨pid, sid', prompt, tier, spent, a, hact, hp, hmem⟩ :=
      reply_of_step hi (List.mem_filter.mp he).1 (isReply_of_replyCharge hcharge)
    obtain ⟨slot, hslot, -, hfits, rfl⟩ :=
      reply_delivered hmem (isReply_of_replyCharge hcharge)
    simp only [Event.replyCharge] at hcharge
    split at hcharge
    · next hsid =>
        subst hsid
        have hanswering : (sid', spent, a) ∈ st.answering i.act := by simp [answering, hact, hp]
        have hobj : slot.val ∈ st.sessions.obj? sid' := by simp [SlotMap.obj?, hslot]
        -- a holder would be a settlement in progress, which a timely reply does not meet
        have hnone : ∀ q, (st.view sid').holds q = none := by
          intro q
          cases hq : (st.view sid').holds q with
          | none => rfl
          | some h =>
              have hset := settles_iff_holds.mpr ⟨h, hq⟩
              have hlt := hf.lt hset.choose_spec.1
              exact absurd hset (htimely _ hanswering _ hobj hfits hcharge q hlt)
        have hr : r = st.chatAnswered pid sid' prompt tier spent (.ok a) i.writes := by
          simpa [step, hact, hp] using hi.symm
        have hquiet := hsees.mono_mem (U := fun v es v' => SessionStep sid' true v es v' ∧
            ∀ e ∈ es, e.startsSettling sid' = false) fun v es v' hstep hes =>
          ⟨hstep, fun e he => not_starts_chatAnswered e (hr ▸ (List.mem_filter.mp (hes e he)).1)⟩
        refine (hquiet.restrict (I := fun v => ∀ pid, v.holds pid = none) hnone ?_).mono ?_
        · exact fun _ _ _ hnone hstep => hstep.1.unheld hstep.2 hnone
        · exact fun _ _ _ hstep => ⟨hstep.2.1, fun _ _ _ => hstep.1⟩
    · exact absurd hcharge (lt_irrefl 0)
  -- no reply that costs something: nothing to show
  · refine hsees.mono_mem fun v es v' hstep hes => ⟨hstep, fun e he hcharge => ?_⟩
    exact absurd ⟨e, hes e he, hcharge⟩ hpos

theorem replied_filter : replied sid (tr.filter (Event.about sid)) = replied sid tr := by
  induction tr with
  | nil => rfl
  | cons e tr ih =>
      rw [show e :: tr = [e] ++ tr from rfl, List.filter_append, replied_append, replied_append, ih]
      congr 1
      by_cases he : e.about sid = true
      · simp [he]
      · have hzero : e.replyCharge sid = 0 := by
          by_contra hpos
          have hreply := isReply_of_replyCharge (Nat.pos_of_ne_zero hpos)
          unfold Event.isReply at hreply
          split at hreply
          · simp only [Event.replyCharge, about_reply] at hpos he
            simp_all
          · cases hreply
        simp [he, replied, hzero]

theorem settledCharge_about {e : Event} {c : ℕ} (h : c ∈ e.settledCharge sid) :
    e.about sid = true := by
  unfold Event.settledCharge at h
  split at h
  · split at h
    · split at h
      · next hsid => exact decide_eq_true hsid
      · cases h
    · cases h
  · cases h

theorem boot_tally : Tally sid (restoredCharge disk sid)
    ((boot disk now nextPid chain).view sid) [] := by
  refine ⟨?_, fun pid h hh => (by cases hh), by simp⟩
  have hget : ((boot disk now nextPid chain).view sid).slot = (restoreSessions disk).slot? sid := rfl
  cases hslot : (restoreSessions disk).slot? sid with
  | none =>
      rw [hslot] at hget
      simp [SessionView.total, hget, restoredCharge, SlotMap.get?, hslot, replied]
  | some slot =>
      rw [hslot] at hget
      have hlive := (boot_slot hget).1
      simp [SessionView.total, hget, restoredCharge, SlotMap.get?, hslot, hlive, replied]

/-- **No free reply, if replies are timely.** -/
theorem no_free_reply (h : Trace (lts step Timely) (boot disk now nextPid chain) tr st) :
    NoFreeReply disk sid tr := by
  have hall : Trace (lts step AllWritten) (boot disk now nextPid chain) tr st :=
    h.mono fun _ _ _ ⟨i, hok, hi⟩ => ⟨i, hok.1, hi⟩
  obtain ⟨-, hrun⟩ := trace_lift (T := TimelyStep sid) (State.view sid) (Event.about sid)
    (fun st i r hf hok hi => timelyStep_of_step hf hok hi) (fresh_boot disk now nextPid chain) h
  obtain ⟨-, htally⟩ := hrun.invariant
    (I := fun v tr => Exclusive v ∧ Tally sid (restoredCharge disk sid) v tr)
    ⟨boot_exclusive, boot_tally⟩
    fun _ _ _ _ ⟨hv, ht⟩ hstep => ⟨hstep.1.exclusive hv, hstep.1.tally hv hstep.2 ht⟩
  constructor
  · intro e he c hc
    have := (htally.settled e (List.mem_filter.mpr ⟨he, settledCharge_about hc⟩) c hc).1
    rwa [replied_filter] at this
  · refine (List.pairwise_filter.mp (trace_order sid hall)).imp fun {e e'} he hends => ?_
    by_contra hreply
    rw [Bool.not_eq_false] at hreply
    have := ((he (endsSettling_about hends) (replies_about hreply)).1 hends).2
    simp [hreply] at this

end Runs

/-! A reply that comes back in time is charged. -/

def demoAnswer : Answer := ⟨[0x6f, 0x6b], none, false, "m", "basic", 42, 42⟩

def promptReply : List Action :=
  openSession ++ [.chat ⟨0, [0x68, 0x69], none⟩, .answered 2 (.ok demoAnswer), .endSession 0,
    .endReturned 3 (landedRun 49958)]

theorem no_free_reply_demo : ∃ tr : List Event,
    replied 0 tr = 42 ∧ tr.countP (Event.endsSettling 0) = 1 ∧
      NoFreeReply ⟨none, none, none⟩ 0 tr :=
  have h := trace_exec step Timely demoBoot (written promptReply) (by decide) (by decide)
  ⟨_, by decide, by decide, no_free_reply h⟩

/-! A reply is on its way when the session is ended. It arrives while the
settlement, started with charge 0, is in progress: it passes the `settled` check
and is delivered, and the settlement then succeeds. -/

def lateReply : List Action :=
  openSession ++ [.chat ⟨0, [0x68, 0x69], none⟩, .endSession 0, .answered 2 (.ok demoAnswer),
    .endReturned 3 (landedRun 50000)]

theorem free_reply_delivered : ¬ ∀ (disk : Disk) (now : ℕ) (nextPid : Pid)
    (chain : EscrowNote → NoteStatus) (sid : SessionId) (tr : List Event) (st : State),
    Trace (lts step AllWritten) (boot disk now nextPid chain) tr st → NoFreeReply disk sid tr := by
  intro h
  have hrun := trace_exec step AllWritten demoBoot (written lateReply) (by decide) (by decide)
  have := h _ _ _ _ 0 _ _ hrun
  revert this
  decide

end Bartok.Bridge
