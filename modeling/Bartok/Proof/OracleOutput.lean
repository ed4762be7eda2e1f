import Bartok.Bridge.ChildOutput
import Bartok.Foundation.JsonLiteral
import Bartok.Proof.Pipeline

/-!
# The output of the oracle

The oracle prints its record as one line of JSON. `run` merges stdout and stderr, `lastJson`
parses the last line of that text that begins like an object, and `runAnswer` goes on with
whatever value it gets. An output delivers the line where it arrives whole and last. Then
the values are those of the record, with its numbers as doubles.
-/

namespace Bartok.Proof

open Foundation Text Json Bridge

/-! ## The line -/

/-- The map of `serde_json::json!` is sorted by the names. -/
def OracleLine.fields (line : OracleLine) : List (String × Json) :=
  [("charge", .ofNat line.charge.toNat), ("model", .str (line.model.flatMap units)),
    ("notary_ok", .bool line.notaryOk), ("total_tokens", .ofNat line.totalTokens.toNat)]

def OracleLine.json (line : OracleLine) : Json := object line.fields

/-- What the oracle and `cargo` print besides goes to stderr. -/
def OracleLine.printout (line : OracleLine) (stderr : List UInt8) : Printout :=
  .ofObject (line.fields.map fun f => (utf16 f.1, f.2)) stderr

/-! ## Reading it -/

/-- What `runAnswer` returns, with the values that `JSON.parse` made. -/
structure Returned where
  reply : JsString
  reasoning : Option JsString
  truncated : Bool
  model : Option Json
  tier : String
  tokens : Option Json
  charge : Option Json

/-- The double of a whole number. -/
def wholeDouble (v : Option Json) : Option ℕ := (v.bind whole).map asDouble

/-- `String(value)`, or the message of its exception. -/
def stringOf (rt : SettleRuntime) : Option Json → Except String JsString
  | none => .ok (utf16 "undefined")
  | some v => (v.toText rt.numText rt.stack).elim (.error (rt.conversionError v)) .ok

/-- From the end of the oracle's run to the return; `model` is the one that was asked for. -/
def acceptOracle (rt : SettleRuntime) (model : Text) (o : RunOutput) : Except JsString Json :=
  match o.settled.filter fun oracle => (field "notary_ok" oracle).any truthy with
  | none =>
      .error (utf16 (if includes "REJECTED".toList o.out then "oracle rejected: unknown notary"
        else "oracle verification failed"))
  | some oracle =>
      match stringOf rt (field "model" oracle) with
      | .error message => .error (utf16 message)
      | .ok verified =>
          if (baseName (model.flatMap units)).isPrefixOf (baseName verified) then .ok oracle
          else .error (utf16 "verified model mismatch: paid for " ++ model.flatMap units ++
            utf16 ", proof says " ++ verified)

variable {crates : Crates}

def Call.returned (c : Call crates) (file : Option TlsSession) (oracle : Json) : Returned where
  reply := (replyText file).1
  reasoning := (replyText file).2
  truncated := c.truncated
  model := field "model" oracle
  tier := c.tier
  tokens := field "total_tokens" oracle
  charge := field "charge" oracle

/-- `runAnswer`, given what `run` resolves to for the oracle. -/
def runAnswerText (rt : SettleRuntime) (c : Call crates) (o : RunOutput) :
    WorkDir crates.Presentation × Except JsString Returned :=
  match c.presents with
  | (dir, .error reason) => (dir, .error (reason.flatMap units))
  | (dir, .ok (_, model)) => (dir, (acceptOracle rt model o).map (c.returned dir.response))

/-- The line of the oracle, if it is run and exits with 0. -/
def Call.line (c : Call crates) : Option OracleLine :=
  match c.presents with
  | (dir, .ok (tier, _)) =>
      (oracleLine crates (c.oracleEnv tier) dir.presentation c.oracle).toOption
  | _ => none

/-- An output of the call's oracle: the exit code tells whether there is a line, and that
line is the one that `lastJson` takes. -/
def Call.Delivers (c : Call crates) (o : RunOutput) : Prop :=
  match c.line with
  | some line => o.code = some 0 ∧ lastJson o.out = some line.json
  | none => o.code ≠ some 0

/-! ## The values of the record -/

section Values

variable {rt : SettleRuntime} {c : Call crates} {o : RunOutput} {line : OracleLine} {model : Text}
  {oracle : Json} {dir : WorkDir crates.Presentation} {r : Returned} {a : Answer}
  {code : Option ℤ} {data : List Chunk} {stderr : List UInt8} {tier : Tier}

theorem field_object (fields : List (String × Json)) (name : String) :
    field name (object fields) = (fields.reverse.find? (·.1 = name)).map Prod.snd :=
  Option.some.inj (get_object fields name)

theorem field_model : field "model" line.json = some (.str (line.model.flatMap units)) :=
  field_object _ _

theorem field_notaryOk : field "notary_ok" line.json = some (.bool line.notaryOk) :=
  field_object _ _

theorem wholeDouble_charge : wholeDouble (field "charge" line.json) =
    some (asDouble line.charge.toNat) := by
  have hfield : field "charge" line.json = some (.ofNat line.charge.toNat) := field_object _ _
  rw [wholeDouble, hfield, Option.bind_some, whole_ofNat, Option.map_some]

theorem wholeDouble_tokens : wholeDouble (field "total_tokens" line.json) =
    some (asDouble line.totalTokens.toNat) := by
  have hfield : field "total_tokens" line.json = some (.ofNat line.totalTokens.toNat) :=
    field_object _ _
  rw [wholeDouble, hfield, Option.bind_some, whole_ofNat, Option.map_some]

/-- A line that arrives whole and last is delivered, whatever else is printed. -/
theorem lastJson_printout (h : (line.printout stderr).Apart data) :
    lastJson (run code data).out = some line.json := lastJson_of_apart h

/-- What is accepted has a model that extends the base name, whatever the output is. -/
theorem acceptOracle_eq_ok : acceptOracle rt model o = .ok oracle ↔
    o.settled = some oracle ∧ (field "notary_ok" oracle).any truthy = true ∧
      ∃ verified, stringOf rt (field "model" oracle) = .ok verified ∧
        baseName (model.flatMap units) <+: baseName verified := by
  unfold acceptOracle
  constructor
  · intro h
    split at h
    · cases h
    · next oracle' hsettled =>
        obtain ⟨hsettled, hnotary⟩ := Option.filter_eq_some_iff.mp hsettled
        split at h
        · cases h
        · next verified hverified =>
            split at h
            · next hbase =>
                cases h
                exact ⟨hsettled, hnotary, verified, hverified, List.isPrefixOf_iff_prefix.mp hbase⟩
            · cases h
  · rintro ⟨hsettled, hnotary, verified, hverified, hbase⟩
    have hprefix := List.isPrefixOf_iff_prefix.mpr hbase
    have hfilter : o.settled.filter (fun oracle => (field "notary_ok" oracle).any truthy) =
        some oracle := Option.filter_eq_some_iff.mpr ⟨hsettled, hnotary⟩
    simp only [hfilter, hverified, hprefix, if_true]

theorem runAnswerText_eq_ok : runAnswerText rt c o = (dir, .ok r) ↔
    ∃ tier model oracle, c.presents = (dir, .ok (tier, model)) ∧
      acceptOracle rt model o = .ok oracle ∧ r = c.returned dir.response oracle := by
  unfold runAnswerText
  constructor
  · intro h
    split at h
    · cases h
    · next dir' tier model hpresents =>
        cases haccept : acceptOracle rt model o with
        | error reason =>
            rw [haccept] at h
            cases h
        | ok oracle =>
            rw [haccept] at h
            cases h
            exact ⟨tier, model, oracle, hpresents, haccept, rfl⟩
  · rintro ⟨tier, model, oracle, hpresents, haccept, rfl⟩
    simp only [hpresents, haccept]
    rfl

theorem runAnswerText_dir : (runAnswerText rt c o).1 = c.presents.1 := by
  unfold runAnswerText
  split <;> next hpresents => rw [hpresents]

/-- Of an output that delivers its line, the line is accepted or nothing is. -/
theorem acceptOracle_delivers (h : c.Delivers o)
    (hpresents : c.presents = (dir, .ok (tier, model))) :
    acceptOracle rt model o = .ok oracle ↔
      ∃ line, c.Accepts tier model dir.presentation line ∧ oracle = line.json := by
  have hline : c.line =
      (oracleLine crates (c.oracleEnv tier) dir.presentation c.oracle).toOption := by
    simp only [Call.line, hpresents]
  rw [Call.Delivers, hline] at h
  rw [acceptOracle_eq_ok]
  constructor
  · rintro ⟨hsettled, -, verified, hverified, hbase⟩
    have hcode : o.code = some 0 := by
      by_contra hcode
      rw [RunOutput.settled, if_neg hcode] at hsettled
      cases hsettled
    split at h
    · next line hline =>
        obtain ⟨-, hlast⟩ := h
        rw [RunOutput.settled, if_pos hcode, hlast] at hsettled
        obtain rfl : line.json = oracle := Option.some.inj hsettled
        rw [field_model, stringOf, toText_str] at hverified
        obtain rfl := Except.ok.inj hverified
        obtain ⟨hfinished, hmain⟩ := oracleLine_eq_ok.mp (toOption_eq_some.mp hline)
        exact ⟨line, ⟨hfinished, hmain, hbase⟩, rfl⟩
    · exact absurd hcode h
  · rintro ⟨line, ⟨hfinished, hmain, hbase⟩, rfl⟩
    rw [oracleLine_eq_ok.mpr ⟨hfinished, hmain⟩] at h
    obtain ⟨hcode, hlast⟩ := h
    refine ⟨?_, ?_, _, ?_, hbase⟩
    · rw [RunOutput.settled, if_pos hcode, hlast]
      rfl
    · rw [field_notaryOk, notaryOk_of_main hmain]
      rfl
    · rw [field_model, stringOf, toText_str]
      rfl

/-- The answer that the bridge goes on with has these values. -/
structure Returned.Is (r : Returned) (a : Answer) : Prop where
  reply : r.reply = a.reply
  reasoning : r.reasoning = a.reasoning
  truncated : r.truncated = a.truncated
  model : r.model = some (.str (utf16 a.model))
  tier : r.tier = a.tier
  tokens : wholeDouble r.tokens = some a.tokens
  charge : wholeDouble r.charge = some a.charge

theorem returned_is (c : Call crates) (file : Option TlsSession) (line : OracleLine) :
    (c.returned file line.json).Is (c.answer file line) where
  reply := rfl
  reasoning := rfl
  truncated := rfl
  model := field_model.trans (by rw [utf16, Call.answer, String.toList_ofList])
  tier := rfl
  tokens := wholeDouble_tokens
  charge := wholeDouble_charge

/-- **The record is what the text says.** For an output that delivers its line, the call
returns the values of the oracle's record, and else throws. -/
theorem runAnswer_reads (h : c.Delivers o) :
    runAnswer c = (dir, .ok a) ↔ ∃ r, runAnswerText rt c o = (dir, .ok r) ∧ r.Is a := by
  constructor
  · intro hanswer
    obtain ⟨tier, dir₁, model, s, line, hreports, hdir, haccepts, rfl⟩ := runAnswer_eq_ok.mp hanswer
    have hpresents := presents_eq_ok.mpr ⟨dir₁, s, hreports, hdir⟩
    exact ⟨c.returned dir.response line.json, runAnswerText_eq_ok.mpr ⟨tier, model, line.json,
      hpresents, (acceptOracle_delivers h hpresents).mpr ⟨line, haccepts, rfl⟩, rfl⟩,
      returned_is c _ line⟩
  · rintro ⟨r, htext, his⟩
    obtain ⟨tier, model, oracle, hpresents, haccept, rfl⟩ := runAnswerText_eq_ok.mp htext
    obtain ⟨line, haccepts, rfl⟩ := (acceptOracle_delivers h hpresents).mp haccept
    obtain ⟨dir₁, s, hreports, hdir⟩ := presents_eq_ok.mp hpresents
    have hline := returned_is c dir.response line
    have hmodel : utf16 a.model = utf16 (c.answer dir.response line).model := by
      have hsame := his.model.symm.trans hline.model
      simpa using hsame
    have hanswer : a = c.answer dir.response line := by
      obtain ⟨reply, reasoning, truncated, name, tier', tokens, charge⟩ := a
      simp only [Call.answer, Answer.mk.injEq]
      exact ⟨his.reply.symm, his.reasoning.symm, his.truncated.symm, utf16_injective hmodel,
        his.tier.symm, Option.some.inj (his.tokens.symm.trans hline.tokens),
        Option.some.inj (his.charge.symm.trans hline.charge)⟩
    exact runAnswer_eq_ok.mpr ⟨tier, dir₁, model, s, line, hreports, hdir, haccepts, hanswer⟩

end Values

end Bartok.Proof
