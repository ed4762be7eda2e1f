import Bartok.Proof.Charge
import Bartok.Proof.OracleOutput
import Bartok.Bridge.FailedChat

/-!
# The tier that was paid for

A tier has several models, and the prover falls back from one to the next. The oracle
may report any string as the verified model; it is compared with the one model whose run
showed a 200. No base name of a model of one tier is a prefix of one of the other tier,
and two prefixes of one string are prefixes of each other, so that no string passes for
both tiers. The charge is a number of 64 bits on the oracle's line, and what is returned is
the double that `JSON.parse` makes of it.
-/

namespace Bartok.Proof

open Foundation Text Json Bridge

/-- A verified model that some model of the tier is accepted with. -/
def AcceptedFor (tier : Tier) (verified : JsString) : Prop :=
  ∃ model ∈ (TIERS tier).models, baseName (utf16 model) <+: baseName verified

theorem bases_apart : ∀ basic ∈ (TIERS .basic).models, ∀ genius ∈ (TIERS .genius).models,
    ¬ baseName (utf16 basic) <+: baseName (utf16 genius) ∧
      ¬ baseName (utf16 genius) <+: baseName (utf16 basic) := by
  decide +kernel

/-- **No string is a model of both tiers.** -/
theorem accepted_apart (verified : JsString) :
    ¬ (AcceptedFor .basic verified ∧ AcceptedFor .genius verified) := by
  rintro ⟨⟨basic, hbasic, hb⟩, ⟨genius, hgenius, hg⟩⟩
  obtain ⟨hleft, hright⟩ := bases_apart basic hbasic genius hgenius
  rcases List.prefix_or_prefix_of_prefix hb hg with h | h
  · exact hleft h
  · exact hright h

/-! ## The loop over the models -/

section Loop

variable {P : Type} {runs : ℕ → ProveRun} {id : ℕ} {dir dir' : WorkDir P} {models : List String}
  {m : String} {model : Text} {s : TlsSession}

/-- Run `id` asks for model `m`, and its output shows a 200. -/
def Reported (runs : ℕ → ProveRun) (id : ℕ) (m : String) : Prop :=
  includes "Got response: 200".toList
    ((runs id).out m.toList ⟨id, SERVER_DOMAIN, (runs id).response⟩) = true

/-- Of the runs that are made, for `models` in order from `id` on, only the last shows a
200, and it is for `m`. -/
inductive OneReported (runs : ℕ → ProveRun) (m : String) : ℕ → List String → Prop
  | here {id : ℕ} {models : List String} (h : Reported runs id m) :
      OneReported runs m id (m :: models)
  | next {id : ℕ} {m' : String} {models : List String} (h : ¬ Reported runs id m')
      (hrest : OneReported runs m (id + 1) models) : OneReported runs m id (m' :: models)

theorem OneReported.mem (h : OneReported runs m id models) : m ∈ models := by
  induction h with
  | here _ => exact List.mem_cons_self
  | next _ _ ih => exact List.mem_cons_of_mem _ ih

theorem tryModels_reported : ∀ {id : ℕ} {dir : WorkDir P} {models : List String},
    tryModels runs id dir models = (dir', some (model, s)) →
      ∃ m, model = m.toList ∧ OneReported runs m id models
  | _, _, [], h => by cases h
  | id, dir, m :: models, h => by
      simp only [tryModels] at h
      split at h
      · next hreported =>
          cases h
          exact ⟨m, rfl, .here hreported⟩
      · next hsilent =>
          obtain ⟨m', hmodel, hrest⟩ := tryModels_reported h
          exact ⟨m', hmodel, .next hsilent hrest⟩

theorem OneReported.tryModels (h : OneReported runs m id models) (dir : WorkDir P) :
    ∃ dir' s, tryModels runs id dir models = (dir', some (m.toList, s)) := by
  induction h generalizing dir with
  | here h => exact ⟨_, _, if_pos h⟩
  | @next id m' _ h _ ih =>
      obtain ⟨dir', s, hrest⟩ := ih
        (dir.prove m'.toList ⟨id, SERVER_DOMAIN, (runs id).response⟩ (runs id).done)
      exact ⟨dir', s, (if_neg h).trans hrest⟩

end Loop

/-! ## What is returned -/

section Accepted

variable {crates : Crates} {c : Call crates} {dir : WorkDir crates.Presentation} {a : Answer}
  {tier : Tier} {line : OracleLine} {file : Option crates.Presentation} {st : State} {pid : Pid}
  {w : Writes} {r : State × List Event}

/-- The outcome of the call, as the chat that waits for it gets it. -/
def Call.outcome (c : Call crates) : Except String Answer := (runAnswer c).2.mapError String.ofList

/-- Of the models of `tier`, `m` is the one whose run shows a 200; the oracle accepts what
the runs left in `dir`, for a model that extends the base name of `m`, at the price of the
tier. -/
structure Call.PaidFor (c : Call crates) (dir : WorkDir crates.Presentation) (tier : Tier)
    (m : String) (line : OracleLine) : Prop where
  own : tierEntry c.tier = .own tier
  key : c.apiKey = true
  one : OneReported c.proves m c.sessions (TIERS tier).models
  finished : c.oracle.finished = true
  printed : main crates (c.oracleEnv tier) dir.presentation = .ok line
  base : baseName (utf16 m) <+: baseName (line.model.flatMap units)
  charge : line.charge =
    charge line.totalTokens (UInt64.ofNat (TIERS tier).pricePerToken) (c.oracleEnv tier).denom

theorem oracleEnv_price :
    (c.oracleEnv tier).pricePerToken.bind parseU64 =
      some (UInt64.ofNat (TIERS tier).pricePerToken) := by
  have hprice : ∀ tier, parseU64 (Nat.toDigits 10 (TIERS tier).pricePerToken) =
      some (UInt64.ofNat (TIERS tier).pricePerToken) := by
    intro tier
    cases tier <;> decide
  exact hprice tier

theorem charge_of_tier (h : main crates (c.oracleEnv tier) file = .ok line) : line.charge =
    charge line.totalTokens (UInt64.ofNat (TIERS tier).pricePerToken) (c.oracleEnv tier).denom := by
  obtain ⟨price, hprice, hcharge⟩ := charge_of_main h
  obtain rfl := Option.some.inj (hprice.symm.trans oracleEnv_price)
  exact hcharge

theorem paidFor_of_ok (h : runAnswer c = (dir, .ok a)) :
    ∃ tier m line, c.PaidFor dir tier m line ∧ a = c.answer dir.response line := by
  obtain ⟨tier, dir₁, model, s, line, ⟨hown, hkey, hloop⟩, rfl, ⟨hfinished, hmain, hbase⟩, rfl⟩ :=
    runAnswer_eq_ok.mp h
  obtain ⟨m, rfl, hone⟩ := tryModels_reported hloop
  exact ⟨tier, m, line, ⟨hown, hkey, hone, hfinished, hmain, hbase, charge_of_tier hmain⟩, rfl⟩

/-- What is paid for is presented and accepted. -/
theorem presents_of_paidFor {m : String} (h : c.PaidFor c.presents.1 tier m line) :
    c.presents = (c.presents.1, .ok (tier, m.toList)) ∧
      c.Accepts tier m.toList c.presents.1.presentation line := by
  obtain ⟨dir', s, hloop⟩ := h.one.tryModels c.dir
  have hpresents : c.presents = (dir'.present crates c.presented, .ok (tier, m.toList)) :=
    presents_eq_ok.mpr ⟨dir', s, ⟨h.own, h.key, hloop⟩, rfl⟩
  have hpassed : c.presents.2 = .ok (tier, m.toList) := by rw [hpresents]
  exact ⟨Prod.ext rfl hpassed, h.finished, h.printed, h.base⟩

variable {rt : SettleRuntime} {o : RunOutput} {x : Returned} {message : String}

/-- An answer that is awaited and does not come is an error, and costs nothing. -/
theorem thrown_free (hi : step st ⟨.answered pid (.error message), w⟩ = some r) :
    r.2 = [.done pid (.error 200 message)] ∧ r.1.chatView = st.chatView := by
  cases steps_of_step hi with
  | answered _ hp =>
      refine ⟨rfl, chatView_answered hp ?_⟩
      rintro ⟨_, _, _, _, _, _, _, herror, -⟩
      cases herror

/-- Of the models of `tier`, `m` is the one whose run shows a 200, and the model of the
result extends its base name. -/
structure Call.ModelOf (rt : SettleRuntime) (c : Call crates) (tier : Tier) (m : String)
    (x : Returned) : Prop where
  own : tierEntry c.tier = .own tier
  one : OneReported c.proves m c.sessions (TIERS tier).models
  base : ∃ verified, stringOf rt x.model = .ok verified ∧ baseName (utf16 m) <+: baseName verified

/-- A result is of a model of the tier that was paid for, and its charge is the one that the
oracle computes with the price of the tier; a call that throws costs nothing. -/
structure TierPaidFor (rt : SettleRuntime) (c : Call crates) (o : RunOutput) : Prop where
  returned : ∀ x, (runAnswerText rt c o).2 = .ok x → ∃ tier m line, c.ModelOf rt tier m x ∧
    main crates (c.oracleEnv tier) (runAnswerText rt c o).1.presentation = .ok line ∧
    line.charge = charge line.totalTokens (UInt64.ofNat (TIERS tier).pricePerToken)
      (c.oracleEnv tier).denom ∧
    wholeDouble x.charge = some line.charge.toNat
  thrown : ∀ reason, (runAnswerText rt c o).2 = .error reason → ∀ st pid message w r,
    step st ⟨.answered pid (.error message), w⟩ = some r →
      r.2 = [.done pid (.error 200 message)] ∧ r.1.chatView = st.chatView

/-- The model is compared, whatever the output is read as. -/
theorem modelOf_of_ok (h : (runAnswerText rt c o).2 = .ok x) : ∃ tier m, c.ModelOf rt tier m x := by
  obtain ⟨tier, model, oracle, hpresents, haccept, rfl⟩ := runAnswerText_eq_ok.mp (Prod.ext rfl h)
  obtain ⟨-, -, hverified⟩ := acceptOracle_eq_ok.mp haccept
  obtain ⟨dir₁, s, ⟨hown, -, hloop⟩, -⟩ := presents_eq_ok.mp hpresents
  obtain ⟨m, rfl, hone⟩ := tryModels_reported hloop
  exact ⟨tier, m, hown, hone, hverified⟩

theorem acceptedFor_of_modelOf {m : String} (h : c.ModelOf rt tier m x) :
    ∃ verified, stringOf rt x.model = .ok verified ∧ AcceptedFor tier verified := by
  obtain ⟨-, hone, verified, hverified, hbase⟩ := h
  exact ⟨verified, hverified, m, hone.mem, hbase⟩

theorem line_of_paidFor {m : String} (h : c.PaidFor c.presents.1 tier m line) :
    c.line = some line := by
  have hline := oracleLine_eq_ok.mpr ⟨h.finished, h.printed⟩
  rw [Call.line, (presents_of_paidFor h).1]
  exact toOption_eq_some.mpr hline

/-- What a call returns is of the line of its oracle. -/
theorem line_of_returns (h : (runAnswer c).2.toOption.isSome = true) :
    ∃ tier m line, c.PaidFor c.presents.1 tier m line ∧ c.line = some line := by
  obtain ⟨a, ha⟩ := Option.isSome_iff_exists.mp h
  have hanswer : runAnswer c = (c.presents.1, .ok a) :=
    Prod.ext runAnswer_dir (toOption_eq_some.mp ha)
  obtain ⟨tier, m, line, hpaid, -⟩ := paidFor_of_ok hanswer
  exact ⟨tier, m, line, hpaid, line_of_paidFor hpaid⟩

/-- Of an output that delivers its line, a call returns what is paid for. -/
theorem ok_iff_paidFor (h : c.Delivers o) : (runAnswerText rt c o).2 = .ok x ↔
    ∃ tier m line, c.PaidFor (runAnswerText rt c o).1 tier m line ∧
      x = c.returned (runAnswerText rt c o).1.response line.json := by
  constructor
  · intro hok
    obtain ⟨tier, model, oracle, hpresents, haccept, rfl⟩ :=
      runAnswerText_eq_ok.mp (Prod.ext rfl hok)
    obtain ⟨line, ⟨hfinished, hmain, hbase⟩, rfl⟩ := (acceptOracle_delivers h hpresents).mp haccept
    obtain ⟨dir₁, s, ⟨hown, hkey, hloop⟩, -⟩ := presents_eq_ok.mp hpresents
    obtain ⟨m, rfl, hone⟩ := tryModels_reported hloop
    exact ⟨tier, m, line, ⟨hown, hkey, hone, hfinished, hmain, hbase, charge_of_tier hmain⟩, rfl⟩
  · rw [runAnswerText_dir]
    rintro ⟨tier, m, line, hpaid, rfl⟩
    obtain ⟨hpresents, haccepts⟩ := presents_of_paidFor hpaid
    have hok : runAnswerText rt c o = (c.presents.1, .ok (c.returned c.presents.1.response line.json)) :=
      runAnswerText_eq_ok.mpr ⟨tier, m.toList, line.json, hpresents,
        (acceptOracle_delivers h hpresents).mpr ⟨line, haccepts, rfl⟩, rfl⟩
    exact congrArg Prod.snd hok

theorem tierPaidFor_iff (h : c.Delivers o) : TierPaidFor rt c o ↔
    ∀ tier m line, c.PaidFor (runAnswerText rt c o).1 tier m line →
      Representable 53 line.charge.toNat := by
  constructor
  · intro hpaidFor tier m line hpaid
    obtain ⟨tier', m', line', hmodel, hmain, -, hcharge⟩ :=
      hpaidFor.returned _ ((ok_iff_paidFor h).mpr ⟨tier, m, line, hpaid, rfl⟩)
    obtain rfl : tier = tier' := by simpa using hpaid.own.symm.trans hmodel.own
    obtain rfl : line = line' := Except.ok.inj (hpaid.printed.symm.trans hmain)
    rw [← roundBits_eq_iff]
    exact Option.some.inj (wholeDouble_charge.symm.trans hcharge)
  · refine fun hrep => ⟨fun x hok => ?_, fun _ _ st pid message w r hi => thrown_free hi⟩
    obtain ⟨tier, m, line, hpaid, rfl⟩ := (ok_iff_paidFor h).mp hok
    refine ⟨tier, m, line, ⟨hpaid.own, hpaid.one, _, ?_, hpaid.base⟩, hpaid.printed, hpaid.charge, ?_⟩
    · rw [Call.returned, field_model, stringOf, toText_str]
      rfl
    · rw [Call.returned, wholeDouble_charge, asDouble, roundBits_eq_iff.mpr (hrep tier m line hpaid)]

/-- **A reply is accepted only for the tier that was paid for, and its charge is the oracle's
exactly if a double can hold it.** The model is of the tier, and of no other, whatever is read
of the oracle's output, and a call that throws costs nothing. Of an output that delivers its
line a call returns exactly if the line is accepted, and then what the record says. -/
theorem tier_paid_for_iff (rt : SettleRuntime) (c : Call crates) (o : RunOutput) :
    (∀ verified, ¬ (AcceptedFor .basic verified ∧ AcceptedFor .genius verified)) ∧
      (∀ x, (runAnswerText rt c o).2 = .ok x → ∃ tier m verified, c.ModelOf rt tier m x ∧
        stringOf rt x.model = .ok verified ∧ AcceptedFor tier verified) ∧
      (∀ reason, (runAnswerText rt c o).2 = .error reason → ∀ st pid message w r,
        step st ⟨.answered pid (.error message), w⟩ = some r →
          r.2 = [.done pid (.error 200 message)] ∧ r.1.chatView = st.chatView) ∧
      (c.Delivers o →
        ((∃ x, (runAnswerText rt c o).2 = .ok x) ↔
          ∃ tier m line, c.PaidFor (runAnswerText rt c o).1 tier m line) ∧
        (∀ dir a, runAnswer c = (dir, .ok a) ↔
          ∃ x, runAnswerText rt c o = (dir, .ok x) ∧ x.Is a) ∧
        (TierPaidFor rt c o ↔
          ∀ tier m line, c.PaidFor (runAnswerText rt c o).1 tier m line →
            Representable 53 line.charge.toNat)) := by
  refine ⟨accepted_apart, ?_, fun _ _ st pid message w r hi => thrown_free hi,
    fun h => ⟨⟨?_, ?_⟩, fun dir a => runAnswer_reads h, tierPaidFor_iff h⟩⟩
  · intro x hok
    obtain ⟨tier, m, hmodel⟩ := modelOf_of_ok hok
    obtain ⟨verified, hverified, haccepted⟩ := acceptedFor_of_modelOf hmodel
    exact ⟨tier, m, verified, hmodel, hverified, haccepted⟩
  · rintro ⟨x, hok⟩
    obtain ⟨tier, m, line, hpaid, -⟩ := (ok_iff_paidFor h).mp hok
    exact ⟨tier, m, line, hpaid⟩
  · rintro ⟨tier, m, line, hpaid⟩
    exact ⟨_, (ok_iff_paidFor h).mpr ⟨tier, m, line, hpaid, rfl⟩⟩

end Accepted

/-! The first model of the tier is rate-limited, and the second one answers. -/

def fallbackCall : Call demoCrates where
  tier := "basic"
  apiKey := true
  truncated := false
  env := demoEnv
  sessions := 0
  dir := ⟨none, none, none, none⟩
  proves
    | 0 => ⟨⟨429, [], none⟩, 3, []⟩
    | _ =>
        ⟨⟨200, "\x7b\"model\":\"openai/gpt-oss-20b\",\"usage\":\x7b\"total_tokens\":28\x7d\x7d".toList,
          some ⟨jsString "hi", none⟩⟩, 11, []⟩
  presented := 2
  oracle := ⟨true, []⟩

def fallbackLine : OracleLine := ⟨28, 28, "openai/gpt-oss-20b".toList, true⟩

/-- The log comes in front of the line. -/
def fallbackPieces : List Chunk :=
  [⟨.stderr, encodeUtf8 "ORACLE: notary ok\n".toList⟩,
    ⟨.stdout, encodeUtf8 (stringify fallbackLine.json ++ ['\n'])⟩]

theorem fallback_apart : (fallbackLine.printout []).Apart fallbackPieces := by
  have hlog : EndsLine 0x0A (encodeUtf8 "ORACLE: notary ok\n".toList) :=
    .inr ⟨encodeUtf8 "ORACLE: notary ok".toList, by decide⟩
  refine ⟨[⟨.stderr, encodeUtf8 "ORACLE: notary ok\n".toList⟩], [], [],
    stringify fallbackLine.json ++ ['\n'], [], ['\n'], rfl, ?_, ?_, .inr ⟨[], rfl⟩, ?_⟩
  · simpa [allBytes] using hlog
  · exact List.append_nil _
  · exact not_marksLater (by decide)

theorem fallbackCall_line : fallbackCall.line = some fallbackLine := by decide +kernel

theorem fallback_delivers : fallbackCall.Delivers (run (some 0) fallbackPieces) := by
  rw [Call.Delivers, fallbackCall_line]
  exact ⟨rfl, lastJson_printout fallback_apart⟩

/-- The reply is returned, and costs the 28 units of the oracle. -/
theorem tier_paid_for_demo :
    (∃ x, (runAnswerText demoSettleRuntime fallbackCall (run (some 0) fallbackPieces)).2 = .ok x) ∧
      TierPaidFor demoSettleRuntime fallbackCall (run (some 0) fallbackPieces) := by
  obtain ⟨-, -, -, hdelivered⟩ :=
    tier_paid_for_iff demoSettleRuntime fallbackCall (run (some 0) fallbackPieces)
  obtain ⟨hreturns, -, hpaidFor⟩ := hdelivered fallback_delivers
  rw [runAnswerText_dir] at hreturns hpaidFor
  refine ⟨hreturns.mpr ?_, hpaidFor.mpr ?_⟩
  · obtain ⟨tier, m, line, hpaid, -⟩ :=
      line_of_returns (show (runAnswer fallbackCall).2.toOption.isSome = true by decide +kernel)
    exact ⟨tier, m, line, hpaid⟩
  · intro tier m line hpaid
    obtain rfl := Option.some.inj (fallbackCall_line.symm.trans (line_of_paidFor hpaid))
    decide

/-! One token more than a double counts. -/

def longCall : Call demoCrates where
  tier := "basic"
  apiKey := true
  truncated := false
  env := demoEnv
  sessions := 0
  dir := ⟨none, none, none, none⟩
  proves _ :=
    ⟨⟨200, ("\x7b\"model\":\"nvidia/nemotron-nano-9b-v2:free\",\"usage\":" ++
      "\x7b\"total_tokens\":9007199254740993\x7d\x7d").toList, some ⟨jsString "hi", none⟩⟩, 11, []⟩
  presented := 2
  oracle := ⟨true, []⟩

def longLine : OracleLine :=
  ⟨9007199254740993, 9007199254740993, "nvidia/nemotron-nano-9b-v2:free".toList, true⟩

theorem longCall_line : longCall.line = some longLine := by decide +kernel

def longOutput : RunOutput := ⟨some 0, stringify longLine.json⟩

theorem long_delivers : longCall.Delivers longOutput := by
  rw [Call.Delivers, longCall_line]
  exact ⟨rfl, lastJson_stringify _⟩

/-- The oracle charges 9007199254740993, and 9007199254740992 is returned. -/
theorem charge_rounded : ¬ ∀ (rt : SettleRuntime) (crates : Crates) (c : Call crates)
    (o : RunOutput), c.Delivers o → TierPaidFor rt c o := by
  intro h
  have hpaidFor := h demoSettleRuntime demoCrates longCall longOutput long_delivers
  rw [tierPaidFor_iff long_delivers, runAnswerText_dir] at hpaidFor
  obtain ⟨tier, m, line, hpaid, hline⟩ :=
    line_of_returns (show (runAnswer longCall).2.toOption.isSome = true by decide +kernel)
  have hrep := hpaidFor tier m line hpaid
  obtain rfl := Option.some.inj (longCall_line.symm.trans hline)
  revert hrep
  decide

end Bartok.Proof
