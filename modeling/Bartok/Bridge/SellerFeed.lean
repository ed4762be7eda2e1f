import Bartok.Bridge.Dashboard
import Bartok.Foundation.EventStream
import Bartok.Foundation.JsonLiteral

/-!
# The seller's feed on the wire

`/api/seller/events` sends what the bridge announces as an event stream, and `seller.html`
listens to it. The events are objects of JSON, the network cuts their bytes where it likes,
and a connection can lag behind or break off. What the page shows is what the bridge had
earned at one moment of the run, and when all the bytes are there it is what the bridge has
earned; no row of the page is made up.
-/

namespace Bartok.Bridge

open Foundation Miden State Text

/-! ## The bridge's side -/

/-- The text of an event for all the clients of `sellerBroadcast`, and of the snapshot. -/
def sellerMessage (event : String) (data : Json) : Text :=
  "event: ".toList ++ event.toList ++ "\ndata: ".toList ++ Json.stringify data ++ "\n\n".toList

namespace SellerEvent

def name : SellerEvent → String
  | snapshot _ => "snapshot"
  | jobStarted _ _ => "job_started"
  | jobDone _ _ _ _ => "job_done"
  | sessionSettled _ _ _ => "session_settled"

/-- `TIERS`, as the snapshot shows it. -/
def tierOffers : Json :=
  let offer (tier : Tier) : Json :=
    Json.object [("model", .ofText ((TIERS tier).models.headD "")),
      ("pricePerToken", .ofNat (TIERS tier).pricePerToken)]
  Json.object [("basic", offer .basic), ("genius", offer .genius)]

/-- `usd` of a number of units is what `toFixed` leaves of a product of doubles. -/
def data (usd : ℕ → NumLit) : SellerEvent → Json
  | snapshot stats =>
      Json.object [("earned", .ofNat stats.earned), ("replies", .ofNat stats.replies),
        ("settled", .ofNat stats.settled), ("earnedUsd", .num (usd stats.earned)),
        ("tiers", tierOffers)]
  | jobStarted tier model => Json.object [("tier", .ofText tier), ("model", .ofText model)]
  | jobDone tier model tokens charge =>
      Json.object [("tier", .ofText tier), ("model", .ofText model), ("tokens", .ofNat tokens),
        ("charge", .ofNat charge), ("chargeUsd", .num (usd charge))]
  | sessionSettled charge proposalId explorer =>
      Json.object [("charge", .ofNat charge), ("chargeUsd", .num (usd charge)),
        ("proposalId", .ofText proposalId), ("explorer", .ofText explorer)]

def message (usd : ℕ → NumLit) (e : SellerEvent) : Text := sellerMessage e.name (e.data usd)

end SellerEvent

/-- Everything that is written to a client that connected in the state `st₀`, in the run
whose events are `tr`. -/
def sellerFeed (usd : ℕ → NumLit) (st₀ : State) (tr : List Event) : Text :=
  (SellerEvent.snapshot st₀.sellerStats :: tr.filterMap Dashboard.hears).flatMap
    (SellerEvent.message usd)

/-! ## The page's side -/

/-- A child of the element `feed`, newest first. -/
inductive Row
  /-- `feedEmpty`, which waits for jobs. -/
  | waiting
  /-- A row with the id `job-live`. -/
  | live (tier model : Utf16)
  | done (tier model : Utf16) (tokens charge : ℕ)
  | settled (explorer : Utf16) (charge : ℕ)
deriving DecidableEq

/-- What the page says about a tier. -/
structure Offer where
  model : Utf16
  rate : ℕ
deriving DecidableEq

structure SellerPage where
  earned : ℕ
  served : ℕ
  settledTotal : ℕ
  basic : Offer
  genius : Offer
  feed : List Row
deriving DecidableEq

namespace SellerPage

/-- As the page is written. -/
def initial : SellerPage :=
  ⟨0, 0, 0, ⟨utf16 "fast, simple replies", 1⟩, ⟨utf16 "most capable, hard asks", 7⟩, [.waiting]⟩

def addRow (row : Row) (feed : List Row) : List Row := (row :: feed).take 12

def isWaiting : Row → Bool
  | .waiting => true
  | _ => false

def isLive : Row → Bool
  | .live _ _ => true
  | _ => false

/-! A field of an event; `none` when reading it throws, or when it is no text or number of
the kind the page shows. -/

def member (d : Json) (name : String) : Option Json := (d.get name).join

def number (d : Json) (name : String) : Option ℕ := (member d name).bind Json.whole

def text (d : Json) (name : String) : Option Utf16 :=
  match member d name with
  | some (.str us) => some us
  | _ => none

variable (q : SellerPage)

def onSnapshot (d : Json) : Option SellerPage := do
  let q := { q with
    earned := ← number d "earned"
    served := ← number d "replies"
    settledTotal := ← number d "earned" }
  match member d "tiers" with
  | none => return q
  | some tiers =>
      if tiers.truthy then
        let basic ← member tiers "basic"
        let genius ← member tiers "genius"
        return { q with
          basic := ⟨← text basic "model", ← number basic "pricePerToken"⟩
          genius := ⟨← text genius "model", ← number genius "pricePerToken"⟩ }
      else return q

def onJobStarted (d : Json) : Option SellerPage := do
  return { q with
    feed := addRow (.live (← text d "tier") (← text d "model")) (q.feed.eraseP isWaiting) }

def onJobDone (d : Json) : Option SellerPage := do
  let charge ← number d "charge"
  let row := Row.done (← text d "tier") (← text d "model") (← number d "tokens") charge
  return { q with
    feed := addRow row (q.feed.eraseP isLive)
    earned := q.earned + charge
    served := q.served + 1 }

def onSessionSettled (d : Json) : Option SellerPage := do
  return { q with feed := addRow (.settled (← text d "explorer") (← number d "charge")) q.feed }

/-- The listeners of the page. -/
def on (m : Message) : Option SellerPage :=
  if m.type = "snapshot".toList then (Json.parse m.data).bind q.onSnapshot
  else if m.type = "job_started".toList then (Json.parse m.data).bind q.onJobStarted
  else if m.type = "job_done".toList then (Json.parse m.data).bind q.onJobDone
  else if m.type = "session_settled".toList then (Json.parse m.data).bind q.onSessionSettled
  else some q

/-- The page after the pieces of a connection. -/
def listen (chunks : List (List UInt8)) : Option SellerPage :=
  (EventSource.messages chunks).foldlM on q

/-! ## One event -/

def offerOf (tier : Tier) : Offer :=
  ⟨utf16 ((TIERS tier).models.headD ""), (TIERS tier).pricePerToken⟩

/-- What the page shows after an event of the bridge. -/
def after : SellerEvent → SellerPage
  | .snapshot stats =>
      { q with
        earned := stats.earned
        served := stats.replies
        settledTotal := stats.earned
        basic := offerOf .basic
        genius := offerOf .genius }
  | .jobStarted tier model =>
      { q with
        feed := addRow (.live (utf16 tier) (utf16 model)) (q.feed.eraseP isWaiting) }
  | .jobDone tier model tokens charge =>
      { q with
        feed := addRow (.done (utf16 tier) (utf16 model) tokens charge) (q.feed.eraseP isLive)
        earned := q.earned + charge
        served := q.served + 1 }
  | .sessionSettled charge _ explorer =>
      { q with feed := addRow (.settled (utf16 explorer) charge) q.feed }

section Events

variable {q : SellerPage} {usd : ℕ → NumLit} {id : Text}

theorem member_object {fields : List (String × Json)} {name : String} :
    member (Json.object fields) name = (fields.reverse.find? (·.1 = name)).map Prod.snd := by
  rw [member, Json.get_object]
  rfl

theorem onSnapshot_data (stats : SellerStats) :
    q.onSnapshot ((SellerEvent.snapshot stats).data usd) = some (q.after (.snapshot stats)) := by
  have htiers : SellerEvent.tierOffers.truthy = true := rfl
  have hoffers : ∀ name, member SellerEvent.tierOffers name = _ := fun name => member_object
  simp [onSnapshot, SellerEvent.data, number, text, member_object, htiers, hoffers, Json.ofText,
    after, offerOf]

theorem onJobStarted_data (tier model : String) :
    q.onJobStarted ((SellerEvent.jobStarted tier model).data usd) =
      some (q.after (.jobStarted tier model)) := by
  simp [onJobStarted, SellerEvent.data, text, member_object, Json.ofText, after]

theorem onJobDone_data (tier model : String) (tokens charge : ℕ) :
    q.onJobDone ((SellerEvent.jobDone tier model tokens charge).data usd) =
      some (q.after (.jobDone tier model tokens charge)) := by
  simp [onJobDone, SellerEvent.data, number, text, member_object, Json.ofText, after]

theorem onSessionSettled_data (charge : ℕ) (proposalId explorer : String) :
    q.onSessionSettled ((SellerEvent.sessionSettled charge proposalId explorer).data usd) =
      some (q.after (.sessionSettled charge proposalId explorer)) := by
  simp [onSessionSettled, SellerEvent.data, number, text, member_object, Json.ofText, after]

/-- The listener of an event gets what the bridge put into it. -/
theorem on_data (e : SellerEvent) :
    q.on ⟨e.name.toList, Json.stringify (e.data usd), id⟩ = some (q.after e) := by
  have hparse : Json.parse (Json.stringify (e.data usd)) = some (e.data usd) := by
    cases e <;> exact Json.parse_stringify_object _
  rw [on, hparse]
  simp only [String.toList_inj, Option.bind_some]
  cases e with
  | snapshot stats => exact onSnapshot_data stats
  | jobStarted tier model => exact onJobStarted_data tier model
  | jobDone tier model tokens charge => exact onJobDone_data tier model tokens charge
  | sessionSettled charge proposalId explorer =>
      exact onSessionSettled_data charge proposalId explorer

/-- The three figures are those of a dashboard. -/
def figures (q : SellerPage) : Dashboard := ⟨q.earned, q.served, q.settledTotal⟩

theorem figures_after (e : SellerEvent) : (q.after e).figures = q.figures.receive e := by
  cases e <;> rfl

/-- The row that an event puts at the top of the feed. -/
def rowOf : SellerEvent → Option Row
  | .snapshot _ => none
  | .jobStarted tier model => some (.live (utf16 tier) (utf16 model))
  | .jobDone tier model tokens charge => some (.done (utf16 tier) (utf16 model) tokens charge)
  | .sessionSettled charge _ explorer => some (.settled (utf16 explorer) charge)

theorem mem_addRow {row row' : Row} {feed : List Row} (h : row ∈ addRow row' feed) :
    row = row' ∨ row ∈ feed := List.mem_cons.mp (List.mem_of_mem_take h)

theorem mem_feed_after {row : Row} {e : SellerEvent} (h : row ∈ (q.after e).feed) :
    row ∈ q.feed ∨ rowOf e = some row := by
  cases e with
  | snapshot stats => exact .inl h
  | jobStarted tier model =>
      rcases mem_addRow h with rfl | h
      · exact .inr rfl
      · exact .inl (List.mem_of_mem_eraseP h)
  | jobDone tier model tokens charge =>
      rcases mem_addRow h with rfl | h
      · exact .inr rfl
      · exact .inl (List.mem_of_mem_eraseP h)
  | sessionSettled charge proposalId explorer =>
      rcases mem_addRow h with rfl | h
      · exact .inr rfl
      · exact .inl h

theorem length_feed_after {e : SellerEvent} (h : q.feed.length ≤ 12) :
    (q.after e).feed.length ≤ 12 := by
  cases e with
  | snapshot stats => exact h
  | _ => exact List.length_take_le _ _

/-! ## A connection -/

/-- What the page shows after some events. -/
def follow (q : SellerPage) (es : List SellerEvent) : SellerPage := es.foldl after q

variable {es : List SellerEvent} {chunks : List (List UInt8)} {row : Row}

theorem figures_follow : (q.follow es).figures = es.foldl Dashboard.receive q.figures := by
  induction es generalizing q with
  | nil => rfl
  | cons e es ih =>
      rw [List.foldl_cons, ← figures_after]
      exact ih

theorem mem_feed_follow (h : row ∈ (q.follow es).feed) :
    row ∈ q.feed ∨ ∃ e ∈ es, rowOf e = some row := by
  induction es generalizing q with
  | nil => exact .inl h
  | cons e es ih =>
      rcases ih h with hrow | ⟨e', he', hrow⟩
      · rcases mem_feed_after hrow with hrow | hrow
        · exact .inl hrow
        · exact .inr ⟨e, List.mem_cons_self, hrow⟩
      · exact .inr ⟨e', List.mem_cons_of_mem e he', hrow⟩

theorem length_feed_follow (h : q.feed.length ≤ 12) : (q.follow es).feed.length ≤ 12 := by
  induction es generalizing q with
  | nil => exact h
  | cons e es ih => exact ih (length_feed_after h)

/-- No listener throws. -/
theorem foldlM_on (es : List SellerEvent) :
    (es.map fun e => ⟨e.name.toList, Json.stringify (e.data usd), []⟩ : List Message).foldlM on q =
      some (q.follow es) := by
  induction es generalizing q with
  | nil => rfl
  | cons e es ih =>
      rw [List.map_cons, List.foldlM_cons, on_data]
      exact ih

theorem isLineEnd_data (e : SellerEvent) :
    ∀ c ∈ Json.stringify (e.data usd), EventStream.isLineEnd c = false := by
  intro c hc
  have hprintable : 0x20 ≤ c.toNat := Json.printable_print (e.data usd) 0 c hc
  rw [EventStream.isLineEnd, Bool.or_eq_false_iff, decide_eq_false_iff_not, decide_eq_false_iff_not]
  constructor
  · rintro rfl
    exact absurd hprintable (by decide)
  · rintro rfl
    exact absurd hprintable (by decide)

theorem messages_feed (es : List SellerEvent) :
    (EventSource.new.receive (encodeUtf8 (es.flatMap (SellerEvent.message usd)))).2 =
      es.map fun e => ⟨e.name.toList, Json.stringify (e.data usd), []⟩ := by
  have hmap : es.flatMap (SellerEvent.message usd) =
      (es.map fun e => (e.name.toList, Json.stringify (e.data usd))).flatMap
        fun m => EventStream.frame m.1 m.2 := by
    rw [List.flatMap_map]
    rfl
  rw [hmap, EventSource.receive_frames, List.map_map]
  · rfl
  · intro m hm
    obtain ⟨e, -, rfl⟩ := List.mem_map.mp hm
    refine ⟨?_, ?_, isLineEnd_data e⟩
    · cases e <;> (dsimp only [SellerEvent.name]; decide)
    · apply EventStream.isLineEnd_of_all
      cases e <;> (dsimp only [SellerEvent.name]; decide)

/-- The page follows the events whose bytes are there. -/
theorem listen_eq (h : chunks.flatten <+: encodeUtf8 (es.flatMap (SellerEvent.message usd))) :
    ∃ got, got <+: es ∧ q.listen chunks = some (q.follow got) ∧
      (chunks.flatten = encodeUtf8 (es.flatMap (SellerEvent.message usd)) → got = es) := by
  have hmessages := EventSource.messages_prefix h
  rw [messages_feed] at hmessages
  obtain ⟨got, hgot, hlisten⟩ := List.prefix_map_iff.mp hmessages
  refine ⟨got, hgot, ?_, fun hall => ?_⟩
  · rw [listen, hlisten]
    exact foldlM_on got
  · have hwhole := congrArg List.length hlisten
    rw [EventSource.messages_eq, hall, messages_feed, List.length_map, List.length_map] at hwhole
    exact hgot.eq_of_length hwhole.symm

end Events

end SellerPage

/-! ## What the bridge announces -/

section Steps

variable {st st₀ : State} {r : State × List Event} {i : Input} {pid : Pid} {sid : SessionId}
  {s : Session} {cursor charge attempt : ℕ} {run : SettleRun} {w : Writes} {u : WalletId}
  {file : Option NoteFile}

theorem hears_refundEvents : (refundEvents sid u file).filterMap Dashboard.hears = [] := by
  cases file <;> rfl

theorem hears_startJoao : (st.startJoao file).2.filterMap Dashboard.hears = [] := by
  cases file <;> rfl

theorem hears_sweepFrom : (st.sweepFrom pid cursor).2.filterMap Dashboard.hears = [] := by
  unfold sweepFrom
  split
  · rfl
  · split <;> rfl

theorem hears_sweepSettled : (st.sweepSettled sid s run w).2.filterMap Dashboard.hears = [] := by
  unfold sweepSettled
  split
  · split
    · rfl
    · simp only [List.filterMap_append, List.filterMap_cons, List.nil_append, Dashboard.hears,
        hears_refundEvents, hears_startJoao]
  · rfl
  · rfl

theorem hears_endReturned :
    ((st.endReturned pid sid s charge attempt run w).2.filterMap Dashboard.hears).length ≤ 1 := by
  unfold endReturned
  dsimp only
  split
  · split
    · exact Nat.zero_le 1
    · simp only [List.cons_append, List.filterMap_append, List.filterMap_cons, List.filterMap_nil,
        List.nil_append, Dashboard.hears, hears_refundEvents, hears_startJoao, List.length_cons,
        List.length_nil]
      exact Nat.le_refl 1
  · exact Nat.zero_le 1
  · split <;> exact Nat.zero_le 1
  · exact Nat.zero_le 1

/-- A step broadcasts at most once. -/
theorem hears_step (hi : step st i = some r) : (r.2.filterMap Dashboard.hears).length ≤ 1 := by
  obtain ⟨act, w⟩ := i
  cases steps_of_step hi with
  | tick | fundNote | consumeNote | connect | endWoken | joaoReturned | escrowFailed | escrowBuilt |
    restart => exact Nat.zero_le 1
  | start req =>
      unfold sessionStart
      dsimp only
      repeat' split
      all_goals exact Nat.zero_le 1
  | escrow sid =>
      unfold sessionEscrow
      dsimp only
      split <;> exact Nat.zero_le 1
  | escrowVerified committed hp =>
      unfold State.escrowVerified
      dsimp only
      split <;> exact Nat.zero_le 1
  | chat req =>
      unfold State.chat
      dsimp only
      split
      · exact Nat.zero_le 1
      · split
        · exact Nat.le_refl 1
        · exact Nat.zero_le 1
  | answered res hp =>
      unfold chatAnswered deliver
      dsimp only
      repeat' split
      all_goals first | exact Nat.zero_le 1 | exact Nat.le_refl 1
  | endSession sid =>
      unfold sessionEnd
      dsimp only
      repeat' split
      all_goals exact Nat.zero_le 1
  | endReturned hp hslot hnote hland => exact hears_endReturned
  | sweep =>
      unfold State.sweep
      rw [hears_sweepFrom]
      exact Nat.zero_le 1
  | sweepReturned hp hslot hnote hland =>
      unfold sweepReturned
      dsimp only
      simp only [List.cons_append, List.filterMap_cons, List.filterMap_append, hears_sweepSettled,
        hears_sweepFrom, Dashboard.hears, List.nil_append]
      exact Nat.zero_le 1
  | redeem u c =>
      unfold State.redeem captureClaimed
      dsimp only
      repeat' split
      all_goals exact Nat.zero_le 1
  | funded ok hp =>
      unfold State.funded
      dsimp only
      repeat' split
      all_goals exact Nat.zero_le 1
  | register req =>
      unfold State.register
      dsimp only
      repeat' split
      all_goals exact Nat.zero_le 1
  | login u password hash =>
      unfold State.login
      dsimp only
      repeat' split
      all_goals exact Nat.zero_le 1

end Steps

/-! ## What the page shows -/

section Runs

variable {st₀ st : State} {tr : List Event} {chunks : List (List UInt8)} {more : List SellerEvent}
  {e : SellerEvent}

theorem seller_of_hears {ev : Event} (h : Dashboard.hears ev = some e) : ev = .seller e := by
  cases ev with
  | seller e' =>
      cases e' with
      | snapshot stats => cases h
      | _ => exact congrArg Event.seller (Option.some.inj h)
  | _ => cases h

/-- With all that a run announces, the page shows what the bridge has earned. -/
theorem figures_run (h : Trace (lts step OneProcess) st₀ tr st) (q : SellerPage) :
    (q.follow (.snapshot st₀.sellerStats :: tr.filterMap Dashboard.hears)).figures =
      ⟨st.sellerStats.earned, st.sellerStats.replies, st₀.sellerStats.earned⟩ := by
  obtain ⟨hearned, hreplies⟩ := announced_run h
  have hfollow : (Dashboard.connected st₀).follow tr = _ := Dashboard.follow_eq
  rw [SellerPage.figures_follow, List.foldl_cons, hearned, hreplies]
  exact hfollow

/-- **The page shows a moment of the run.** Of a connection to the bridge some bytes have come,
cut anywhere. No listener throws. Once the snapshot is there, the page shows what the bridge
had earned at some moment since, and as available what it had earned when the page connected;
each row is one that was there before, or an event up to that moment. With all the bytes, the
moment is now. -/
theorem seller_page_shows_run (usd : ℕ → NumLit) (q₀ : SellerPage)
    (h : Trace (lts step OneProcess) st₀ tr st)
    (hbytes : chunks.flatten <+: encodeUtf8 (sellerFeed usd st₀ tr)) :
    ∃ q, q₀.listen chunks = some q ∧ (q₀.feed.length ≤ 12 → q.feed.length ≤ 12) ∧
      (q = q₀ ∨ ∃ tr₁ tr₂ st₁, tr = tr₁ ++ tr₂ ∧ Trace (lts step OneProcess) st₀ tr₁ st₁ ∧
        Trace (lts step OneProcess) st₁ tr₂ st ∧
        q.figures = ⟨st₁.sellerStats.earned, st₁.sellerStats.replies, st₀.sellerStats.earned⟩ ∧
        ∀ row ∈ q.feed, row ∈ q₀.feed ∨ ∃ e, .seller e ∈ tr₁ ∧ SellerPage.rowOf e = some row) ∧
      (chunks.flatten = encodeUtf8 (sellerFeed usd st₀ tr) →
        q.figures = ⟨st.sellerStats.earned, st.sellerStats.replies, st₀.sellerStats.earned⟩) := by
  obtain ⟨got, hgot, hlisten, hall⟩ := SellerPage.listen_eq (q := q₀) hbytes
  refine ⟨q₀.follow got, hlisten, SellerPage.length_feed_follow, ?_, ?_⟩
  · cases got with
    | nil => exact .inl rfl
    | cons e more =>
        obtain ⟨rfl, hmore⟩ := List.cons_prefix_cons.mp hgot
        have honce : ∀ s es s', lts step OneProcess s es s' →
            (es.filterMap Dashboard.hears).length ≤ 1 := by
          rintro s es s' ⟨i, -, hi⟩
          exact hears_step hi
        obtain ⟨tr₁, tr₂, st₁, hsplit, hbefore, hlater, rfl⟩ := h.cut honce hmore
        refine .inr ⟨tr₁, tr₂, st₁, hsplit, hbefore, hlater, figures_run hbefore q₀, ?_⟩
        intro row hrow
        rcases SellerPage.mem_feed_follow hrow with hrow | ⟨e, he, hrow⟩
        · exact .inl hrow
        · rcases List.mem_cons.mp he with rfl | he
          · cases hrow
          · obtain ⟨ev, hev, hears⟩ := List.mem_filterMap.mp he
            exact .inr ⟨e, seller_of_hears hears ▸ hev, hrow⟩
  · intro hbytes
    rw [hall hbytes]
    exact figures_run h q₀

end Runs

/-! A page that is connected from the start, one reply, and each byte in a chunk of its own. -/

theorem seller_page_shows_run_demo : ∃ (tr : List Event) (q : SellerPage),
    SellerPage.initial.listen ((encodeUtf8 (sellerFeed .ofNat demoBoot tr)).map fun b => [b]) =
      some q ∧ q.figures = ⟨42, 1, 0⟩ := by
  have h := trace_exec step OneProcess demoBoot connectedReply (by decide) (by decide)
  have hbytes : ∀ bytes : List UInt8, (bytes.map fun b => [b]).flatten = bytes :=
    List.flatMap_singleton'
  obtain ⟨q, hlisten, -, -, hall⟩ :=
    seller_page_shows_run .ofNat .initial h ⟨[], by rw [hbytes, List.append_nil]⟩
  exact ⟨_, q, hlisten, (hall (hbytes _)).trans (by decide)⟩

end Bartok.Bridge
