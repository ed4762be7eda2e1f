import Bartok.Bridge.Settlement
import Bartok.Foundation.Base64
import Bartok.Foundation.JsonLiteral

/-!
# The refund rail

Every refund that a settlement reports is appended to the list of its buyer in
`refunds.json`, whoever settled the session and whether the buyer's page is still there. The
page of the buyer asks for the list at every visit and imports the note files in it. The
bridge keeps the last 20, over restarts too; so a refund is offered at every visit until 20
more have been recorded, and the page imports the bytes that `settle_session` had.

A write either succeeds or leaves the file as it was. A write torn after the truncation loses
the whole file at the next load, as `TornWrite` shows of each store.
-/

namespace Bartok.Bridge

open Foundation Miden State

/-! ## What is recorded -/

def Event.refundFor (w : WalletId) : Event → Option NoteFile
  | .refundRecorded _ u file => if u = w then some file else none
  | _ => none

/-- The note files recorded for a wallet, in their order. -/
def recordedFor (w : WalletId) (tr : List Event) : List NoteFile := tr.filterMap (Event.refundFor w)

section Rail

variable {st st' : State} {w u : WalletId} {sid : SessionId} {pid : Pid} {s : Session}
  {file : Option NoteFile} {ok : Bool} {es es' tr : List Event} {r : State × List Event}
  {wr : Writes} {run : SettleRun} {charge attempt cursor : ℕ} {α : Type} {l m : List α} {n : ℕ}

theorem rtake_rtake_append : (l.rtake n ++ m).rtake n = (l ++ m).rtake n := by
  rw [List.rtake_eq_reverse_take_reverse, List.rtake_eq_reverse_take_reverse (l ++ m),
    List.reverse_append, List.reverse_append, List.rtake_eq_reverse_take_reverse l,
    List.reverse_reverse, List.take_append, List.take_append, List.take_take]
  rw [Nat.min_eq_left (Nat.sub_le _ _)]

theorem recordedFor_append :
    recordedFor w (tr ++ es) = recordedFor w tr ++ recordedFor w es := List.filterMap_append

/-- What a step does to the list of a wallet: nothing, or it appends what it records. -/
def Rail (w : WalletId) (st : State) (r : State × List Event) : Prop :=
  recordedFor w r.2 = [] ∧ r.1.loadRefunds w = st.loadRefunds w ∨
    ∃ file, recordedFor w r.2 = [file] ∧
      r.1.loadRefunds w = (st.loadRefunds w ++ [file]).rtake 20

theorem Rail.keep (hsame : r.1.disk.refunds = st.disk.refunds) (hnone : recordedFor w r.2 = []) :
    Rail w st r := by
  refine .inl ⟨hnone, ?_⟩
  rw [loadRefunds, loadRefunds, hsame]

theorem Rail.congr (h : Rail w st (st', es)) (hsame : r.1.disk.refunds = st'.disk.refunds)
    (hes : recordedFor w r.2 = recordedFor w es) : Rail w st r := by
  have hload : r.1.loadRefunds = st'.loadRefunds := by rw [loadRefunds, loadRefunds, hsame]
  unfold Rail at h ⊢
  rw [hes, hload]
  exact h

theorem rail_recordRefund (sid : SessionId) (h : st.recordRefund u file ok = some st') :
    Rail w st (st', refundEvents sid u file) := by
  unfold State.recordRefund at h
  split at h
  · obtain rfl := Option.some.inj h
    exact .keep rfl rfl
  · next file =>
      split at h
      · obtain rfl := Option.some.inj h
        by_cases hw : u = w
        · subst hw
          exact .inr ⟨file, by simp [refundEvents, recordedFor, Event.refundFor],
            Function.update_self _ _ _⟩
        · exact .inl ⟨by simp [refundEvents, recordedFor, Event.refundFor, hw],
            Function.update_of_ne (Ne.symm hw) _ _⟩
      · cases h

/-! ## Handlers -/

theorem recordedFor_startJoao : recordedFor w (st.startJoao file).2 = [] := by
  cases file <;> rfl

theorem file_startJoao : (st.startJoao file).1.disk.refunds = st.disk.refunds := by
  cases file <;> rfl

theorem file_persistSessions : (st.persistSessions ok).disk.refunds = st.disk.refunds := by
  cases ok <;> rfl

theorem file_closeSession : (st.closeSession sid wr).disk.refunds = st.disk.refunds :=
  file_persistSessions

theorem file_releaseCurrent : (st.releaseCurrent sid).disk.refunds = st.disk.refunds := by
  unfold State.releaseCurrent
  split <;> rfl

theorem rail_endReturned :
    Rail w st (st.endReturned pid sid s charge attempt run wr) := by
  unfold State.endReturned
  dsimp only
  split
  · split
    · exact .keep rfl rfl
    · next hrec =>
        apply (rail_recordRefund sid hrec).congr
        · rw [file_startJoao]
          exact file_closeSession
        · rw [List.cons_append, List.cons_append]
          show recordedFor w (refundEvents sid s.buyerId _ ++ .evicted sid :: _ ++ _) = _
          rw [recordedFor_append, recordedFor_append]
          show _ ++ recordedFor w (startJoao _ _).2 ++ [] = _
          rw [recordedFor_startJoao, List.append_nil, List.append_nil]
  · exact .keep file_closeSession rfl
  · split <;> exact .keep rfl rfl
  · exact .keep rfl rfl

theorem rail_sweepSettled : Rail w st (st.sweepSettled sid s run wr) := by
  unfold State.sweepSettled
  split
  · split
    · exact .keep file_releaseCurrent rfl
    · next hrec =>
        apply (rail_recordRefund sid hrec).congr
        · rw [file_startJoao, file_releaseCurrent, file_closeSession]
        · rw [recordedFor_append]
          show _ ++ recordedFor w (startJoao _ _).2 = _
          rw [recordedFor_startJoao, List.append_nil]
  · exact .keep (file_releaseCurrent.trans file_closeSession) rfl
  · exact .keep file_releaseCurrent rfl

theorem file_sweepFrom : (st.sweepFrom pid cursor).1.disk.refunds = st.disk.refunds ∧
    recordedFor w (st.sweepFrom pid cursor).2 = [] := by
  unfold State.sweepFrom
  split
  · exact ⟨rfl, rfl⟩
  · split <;> exact ⟨rfl, rfl⟩

theorem rail_sweepReturned :
    Rail w st (st.sweepReturned pid sid s charge cursor run wr) := by
  have hsettled : Rail w st (st.sweepSettled sid s run wr) := rail_sweepSettled
  obtain ⟨hsame, hnone⟩ : ((st.sweepSettled sid s run wr).1.sweepFrom pid cursor).1.disk.refunds =
      (st.sweepSettled sid s run wr).1.disk.refunds ∧
        recordedFor w ((st.sweepSettled sid s run wr).1.sweepFrom pid cursor).2 = [] :=
    file_sweepFrom
  refine Rail.congr (r := st.sweepReturned pid sid s charge cursor run wr) hsettled hsame ?_
  show recordedFor w ((st.sweepSettled sid s run wr).2 ++ _) =
    recordedFor w (st.sweepSettled sid s run wr).2
  rw [recordedFor_append, hnone, List.append_nil]

/-- The actions whose handlers may record a refund. -/
def Action.returnsSettle : Action → Bool
  | .endReturned _ _ => true
  | .sweepReturned _ _ => true
  | _ => false

theorem returnsSettle_of_closing {act : Action} (h : EventKind.closing ∈ act.kinds) :
    act.returnsSettle = true := by
  cases act <;> first | rfl | simp [Action.kinds] at h

theorem file_deliver {prompt : JsString} {tier : String} {spent : ℕ} {a : Answer} :
    (st.deliver pid sid s prompt tier spent a wr).1.disk.refunds = st.disk.refunds := by
  unfold State.deliver
  dsimp only
  split
  · exact file_persistSessions
  · next hsave =>
      obtain rfl := saveUsers_eq_some hsave
      exact file_persistSessions

/-- The other steps leave the file of the refunds as it was. -/
theorem file_step {act : Action} (hi : step st ⟨act, wr⟩ = some r)
    (hact : act.returnsSettle = false) : r.1.disk.refunds = st.disk.refunds := by
  cases steps_of_step hi with
  | tick | fundNote | consumeNote | connect | escrowFailed | endWoken | joaoReturned
  | restart => rfl
  | start req =>
      unfold State.sessionStart
      dsimp only
      repeat' split
      all_goals rfl
  | escrowBuilt => exact file_persistSessions
  | escrow sid =>
      unfold State.sessionEscrow
      dsimp only
      split <;> rfl
  | escrowVerified committed =>
      unfold State.escrowVerified
      dsimp only
      split
      · exact file_persistSessions
      · rfl
  | chat req =>
      unfold State.chat
      dsimp only
      repeat' split
      all_goals rfl
  | answered res =>
      unfold State.chatAnswered
      dsimp only
      split
      · rfl
      · rfl
      · split
        · rfl
        · split
          · rfl
          · exact file_deliver
  | endSession sid =>
      unfold State.sessionEnd
      dsimp only
      repeat' split
      all_goals rfl
  | sweep => exact (file_sweepFrom (w := "")).1
  | redeem u c =>
      unfold State.redeem captureClaimed
      dsimp only
      repeat' split
      all_goals rfl
  | funded ok hp =>
      unfold State.funded
      dsimp only
      split
      · split
        · rfl
        · next hsave =>
            obtain rfl := saveUsers_eq_some hsave
            rfl
      · rfl
  | register req =>
      unfold State.register
      dsimp only
      split
      · rfl
      · split
        · rfl
        · split
          · rfl
          · next hsave =>
              obtain rfl := saveUsers_eq_some hsave
              rfl
  | login u password hash =>
      unfold State.login
      dsimp only
      repeat' split
      all_goals rfl
  | endReturned | sweepReturned => cases hact

theorem file_land {note : EscrowNote} :
    (st.land note run).disk.refunds = st.disk.refunds := by
  unfold State.land
  split <;> rfl

/-- Each step of each run, restarts among them. -/
theorem rail_step {i : Input} (hi : step st i = some r) : Rail w st r := by
  obtain ⟨act, wr⟩ := i
  cases hact : act.returnsSettle with
  | false =>
      refine .keep (file_step hi hact) (List.filterMap_eq_nil_iff.mpr fun e he => ?_)
      have hkind := kind_step hi e he
      cases e with
      | refundRecorded =>
          rcases hkind with hplain | hclosing
          · cases hplain
          · rw [returnsSettle_of_closing hclosing] at hact
            cases hact
      | _ => rfl
  | true =>
      have hland : ∀ {note : EscrowNote} {run : SettleRun} {r : State × List Event},
          Rail w (st.land note run) r → Rail w st r := by
        intro note run r h
        have hload : (st.land note run).loadRefunds = st.loadRefunds := by
          rw [loadRefunds, loadRefunds, file_land]
        unfold Rail at h ⊢
        rw [hload] at h
        exact h
      cases steps_of_step hi with
      | endReturned => exact hland rail_endReturned
      | sweepReturned => exact hland rail_sweepReturned
      | _ => cases hact

end Rail

/-! ## The page -/

/-- What `GET /api/refunds` answers. -/
def State.refundsAnswer (st : State) (w : WalletId) : Text :=
  Json.stringify (.object [("files", .arr ((st.loadRefunds w).map Json.ofText))])

/-- The characters that `atob` sees; a surrogate is none of its alphabet either way. -/
def byteString (us : Utf16) : Text := us.map fun u => Char.ofNat u.toNat

/-- `Uint8Array.from(atob(f), ...)`, where `atob` does not throw. -/
def noteBytes : Json → Option (List UInt8)
  | .str us => Base64.decode (byteString us)
  | _ => none

/-- `r.files || []`; an answer that is no JSON is none. -/
def filesOf (r : Option Json) : List Json :=
  match r.bind fun v => (v.get "files").bind id with
  | some (.arr files) => files
  | _ => []

/-- The note files that the page imports at a visit, each by itself. -/
def importRefunds (answer : Text) : List (List UInt8) :=
  (filesOf (Json.parse answer)).filterMap noteBytes

/-- `B64.encode(file.to_bytes())`. -/
def encodedNote (bytes : List UInt8) : NoteFile := String.ofList (Base64.encode bytes)

section Page

variable {bytes : List UInt8} {files : List NoteFile}

theorem byteString_units {t : Text} (h : ∀ c ∈ t, c.toNat < 0x80) :
    byteString (t.flatMap Text.units) = t := by
  induction t with
  | nil => rfl
  | cons c t ih =>
      obtain ⟨hc, ht⟩ := List.forall_mem_cons.mp h
      have hunit : Text.units c = [UInt16.ofNat c.toNat] := if_pos (by omega)
      rw [List.flatMap_cons, hunit, List.singleton_append, byteString, List.map_cons, ← byteString,
        ih ht, UInt16.toNat_ofNat_of_lt' (by rw [UInt16.size]; omega), Char.ofNat_toNat]

theorem noteBytes_encodedNote : noteBytes (Json.ofText (encodedNote bytes)) = some bytes := by
  have htext : (encodedNote bytes).toList = Base64.encode bytes := String.toList_ofList
  show Base64.decode (byteString (utf16 (encodedNote bytes))) = some bytes
  rw [utf16, htext, byteString_units fun c hc => (Base64.encode_plain bytes c hc).2,
    Base64.decode_encode]

theorem importRefunds_eq {st : State} {w : WalletId} :
    importRefunds (st.refundsAnswer w) =
      ((st.loadRefunds w).map Json.ofText).filterMap noteBytes := by
  rw [importRefunds, State.refundsAnswer, Json.parse_stringify_object, filesOf, Option.bind_some,
    Json.get_object]
  rfl

end Page

/-- **A refund is offered until 20 more have come.** From a first start, through any steps of
any sessions, restarts and writes that fail without touching the file: at each visit the page of a wallet imports the last 20
of the refunds recorded for this wallet, in their order, with the bytes that were encoded. -/
theorem refund_rail {disk : Disk} {now : ℕ} {nextPid : Pid} {chain : EscrowNote → NoteStatus}
    {ok : State → Input → Prop} {tr : List Event} {st : State} (hdisk : disk.refunds = none)
    (h : Trace (lts step ok) (boot disk now nextPid chain) tr st) (w : WalletId) :
    st.loadRefunds w = (recordedFor w tr).rtake 20 ∧
      ∀ notes : List (List UInt8), recordedFor w tr = notes.map encodedNote →
        importRefunds (st.refundsAnswer w) = notes.rtake 20 := by
  have hload : st.loadRefunds w = (recordedFor w tr).rtake 20 := by
    refine h.invariant (I := fun st tr => st.loadRefunds w = (recordedFor w tr).rtake 20) ?_ ?_
    · show (disk.refunds.getD fun _ => []) w = []
      rw [hdisk]
      rfl
    · rintro st tr es st' hload ⟨i, -, hi⟩
      rw [recordedFor_append]
      rcases rail_step (w := w) hi with ⟨hnone, hsame⟩ | ⟨file, hfile, hmore⟩
      · rw [hnone, hsame, hload, List.append_nil]
      · rw [hfile, hmore, hload, rtake_rtake_append]
  refine ⟨hload, fun notes hnotes => ?_⟩
  have hall : ∀ notes : List (List UInt8),
      ((notes.map encodedNote).map Json.ofText).filterMap noteBytes = notes := by
    intro notes
    induction notes with
    | nil => rfl
    | cons bytes notes ih =>
        rw [List.map_cons, List.map_cons, List.filterMap_cons_some noteBytes_encodedNote, ih]
  rw [importRefunds_eq, hload, hnotes, List.rtake, List.length_map, ← List.map_drop, hall]
  rfl

/-- A settlement that prints the file of its refund. -/
def refundingRun (bytes : List UInt8) : SettleRun :=
  ⟨some 0, some ⟨50000, "p", some (encodedNote bytes), none, "x"⟩, false, false,
    some ⟨50000, encodedNote bytes⟩⟩

def endedOnce : List Action :=
  openSession ++ [.endSession 0, .endReturned 2 (refundingRun [0xAE, 0xE7]), .restart]

theorem refund_rail_demo : ∃ (tr : List Event) (st : State),
    recordedFor "0xb0b" tr = [encodedNote [0xAE, 0xE7]] ∧
      importRefunds (st.refundsAnswer "0xb0b") = [[0xAE, 0xE7]] := by
  have h := trace_exec step AnyStep demoBoot (written endedOnce) (by decide) (by decide)
  have hrecorded : recordedFor "0xb0b" ((exec step demoBoot (written endedOnce)).get
      (by decide)).2 = [[0xAE, 0xE7]].map encodedNote := by decide
  exact ⟨_, _, hrecorded, (refund_rail rfl h "0xb0b").2 _ hrecorded⟩

end Bartok.Bridge
