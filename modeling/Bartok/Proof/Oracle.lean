import Bartok.Proof.Tlsn

/-!
# The oracle

`openrouter_oracle` turns a presentation into a charge: it compares the notary
key, verifies the presentation, reads `usage` and `model` out of the disclosed
text, and prints one line of JSON. The server name is authenticated by the
verification and printed to the log.
-/

namespace Bartok.Proof

open Foundation Text

/-! ## Reading the disclosed text -/

def quoted (key : Text) : Text := '"' :: key ++ ['"']

/-- The scan for the closing brace, `depth` braces deep. -/
def balanced : ℕ → Text → Option Text
  | _, [] => none
  | depth, c :: s =>
      if c = '{' then (balanced (depth + 1) s).map (c :: ·)
      else if c = '}' then
        if depth - 1 = 0 then some [c] else (balanced (depth - 1) s).map (c :: ·)
      else (balanced depth s).map (c :: ·)

/-- `json_object_fragment`. -/
def jsonObjectFragment (s key : Text) : Option Text :=
  (after? (quoted key) s).bind fun rest => balanced 0 (rest.dropWhile (· ≠ '{'))

/-- `json_string`. -/
def jsonString (s key : Text) : Option Text :=
  (after? (quoted key) s).bind fun rest => (after? [':'] rest).bind fun afterColon =>
    match trimStart afterColon with
    | '"' :: inner => if '"' ∈ inner then some (inner.takeWhile (· ≠ '"')) else none
    | _ => none

/-! ## The charge -/

/-- The environment of the process and the files it can read. -/
structure OracleEnv where
  priceDenom : Option Text
  pricePerToken : Option Text
  notaryPubFile : Option Text
  readToString : Text → Option Text

def OracleEnv.denom (env : OracleEnv) : UInt64 :=
  ((env.priceDenom.bind parseU64).filter (0 < ·)).getD 1

/-- Release arithmetic wraps. -/
def charge (totalTokens pricePerToken priceDenom : UInt64) : UInt64 :=
  let c := (totalTokens * pricePerToken + priceDenom / 2) / priceDenom
  if totalTokens > 0 ∧ c = 0 then 1 else c

def OracleEnv.pubPath (env : OracleEnv) : Text :=
  env.notaryPubFile.getD "../../keys/notary.pub.hex".toList

/-- `expected_pub`. -/
def OracleEnv.expectedPub (env : OracleEnv) : Option Text :=
  (env.readToString env.pubPath).map fun pub => (trim pub).map Char.toLower

/-! ## main -/

/-- The line of JSON on stdout. -/
structure OracleLine where
  totalTokens : UInt64
  charge : UInt64
  model : Text
  notaryOk : Bool
deriving DecidableEq

/-- How `main` ends without printing it. -/
inductive Failure
  /-- An `Err` with this text, less the cause it quotes. -/
  | message (text : Text)
  /-- An error of the file system or of `bincode`. -/
  | io
  /-- Exit code 2. -/
  | unknownNotary (actualPub : Text)
  | panic
deriving DecidableEq

def Failure.stderr : Failure → Text
  | .message text => "Error: ".toList ++ text
  | .unknownNotary actualPub =>
      "ORACLE: REJECTED — presentation signed by unknown notary ".toList ++ actualPub
  | _ => []

/-- The text the oracle reads; `X` stands for an undisclosed byte. -/
def PartialTranscript.recv (t : PartialTranscript) : Text := fromUtf8Lossy (t.masked 0x58)

variable (crates : Crates) (env : OracleEnv)

/-- What is read out of the verified presentation. -/
def chargeLine (price : UInt64) (out : PresentationOutput) : Except Failure OracleLine := do
  let _ ← require out.serverName .panic
  let _ ← require (crates.utcTime out.time) .panic
  let transcript ← require out.transcript .panic
  let fragment ← require (jsonObjectFragment transcript.recv "usage".toList)
    (.message "usage not disclosed in the presentation".toList)
  let totalTokens ← require (crates.usage fragment)
    (.message ("disclosed usage is not valid JSON: ".toList ++ fragment))
  let model ← require (jsonString transcript.recv "model".toList)
    (.message "model not disclosed in the presentation".toList)
  return ⟨totalTokens, charge totalTokens price env.denom, model, true⟩

/-- `main`; `file` is the presentation on disk, if it can be read. -/
def main (file : Option crates.Presentation) : Except Failure OracleLine := do
  let priceText ← require env.pricePerToken
    (.message "PRICE_PER_TOKEN env var is required (units per token)".toList)
  let price ← require (parseU64 priceText) (.message "PRICE_PER_TOKEN must be a u64".toList)
  let presentation ← require file .io
  let expectedPub ← require env.expectedPub
    (.message ("notary pubkey not readable at ".toList ++ env.pubPath))
  let actualPub := hexEncode (crates.verifyingKey presentation)
  if actualPub ≠ expectedPub then .error (.unknownNotary actualPub)
  else
    let out ← require (crates.verify presentation) .panic
    chargeLine crates env price out

/-! ## What an accepted presentation has passed -/

/-- The verified output has a server name, a time and a transcript that discloses
`usage` and `model`. -/
structure Disclosed (out : PresentationOutput) (totalTokens : UInt64) (model : Text) : Prop where
  server : out.serverName.isSome
  time : (crates.utcTime out.time).isSome
  usage : ((out.transcript.bind fun t => jsonObjectFragment t.recv "usage".toList).bind
    crates.usage) = some totalTokens
  model : (out.transcript.bind fun t => jsonString t.recv "model".toList) = some model

/-- All the checks of `main`. -/
structure Passes (p : crates.Presentation) (out : PresentationOutput) : Prop where
  price : (env.pricePerToken.bind parseU64).isSome
  key : env.expectedPub = some (hexEncode (crates.verifyingKey p))
  verified : crates.verify p = some out
  disclosed : ∃ totalTokens model, Disclosed crates out totalTokens model

variable {crates env} {p : crates.Presentation} {out : PresentationOutput} {line : OracleLine}
  {file : Option crates.Presentation}

theorem chargeLine_eq_ok {price : UInt64} :
    chargeLine crates env price out = .ok line ↔
      ∃ totalTokens model, Disclosed crates out totalTokens model ∧
        line = ⟨totalTokens, charge totalTokens price env.denom, model, true⟩ := by
  simp only [chargeLine, bind_eq_ok, require_eq_ok, pure, Except.pure, Except.ok.injEq]
  constructor
  · rintro ⟨server, hserver, time, htime, t, ht, fragment, hfragment, n, hn, model, hmodel, rfl⟩
    refine ⟨n, model, ⟨?_, ?_, ?_, ?_⟩, rfl⟩
    · simp [hserver]
    · simp [htime]
    · exact Option.bind_eq_some_iff.mpr ⟨_, Option.bind_eq_some_iff.mpr ⟨t, ht, hfragment⟩, hn⟩
    · exact Option.bind_eq_some_iff.mpr ⟨t, ht, hmodel⟩
  · rintro ⟨n, model, ⟨hserver, htime, husage, hmodel⟩, rfl⟩
    obtain ⟨server, hserver⟩ := Option.isSome_iff_exists.mp hserver
    obtain ⟨time, htime⟩ := Option.isSome_iff_exists.mp htime
    obtain ⟨fragment, hfragment, hn⟩ := Option.bind_eq_some_iff.mp husage
    obtain ⟨t, ht, hfragment⟩ := Option.bind_eq_some_iff.mp hfragment
    obtain ⟨t', ht', hmodel⟩ := Option.bind_eq_some_iff.mp hmodel
    obtain rfl := Option.some.inj (ht.symm.trans ht')
    exact ⟨server, hserver, time, htime, t, ht, fragment, hfragment, n, hn, model, hmodel, rfl⟩

theorem main_eq_ok :
    main crates env file = .ok line ↔
      ∃ p out price, file = some p ∧ env.pricePerToken.bind parseU64 = some price ∧
        env.expectedPub = some (hexEncode (crates.verifyingKey p)) ∧
        crates.verify p = some out ∧ chargeLine crates env price out = .ok line := by
  simp only [main, bind_eq_ok, require_eq_ok]
  constructor
  · rintro ⟨text, htext, price, hprice, p, rfl, pub, hpub, hrest⟩
    split at hrest
    · cases hrest
    · next hkey =>
        obtain ⟨out, hout, hline⟩ := bind_eq_ok.mp hrest
        rw [Ne, not_not] at hkey
        exact ⟨p, out, price, rfl, by simp [htext, hprice], by rw [hpub, hkey],
          require_eq_ok.mp hout, hline⟩
  · rintro ⟨p, out, price, rfl, hprice, hpub, hout, hline⟩
    obtain ⟨text, htext, hprice⟩ := Option.bind_eq_some_iff.mp hprice
    refine ⟨text, htext, price, hprice, p, rfl, _, hpub, ?_⟩
    rw [if_neg (by simp)]
    exact bind_eq_ok.mpr ⟨out, require_eq_ok.mpr hout, hline⟩

theorem notaryOk_of_main (h : main crates env file = .ok line) : line.notaryOk = true := by
  obtain ⟨_, _, _, -, -, -, -, hline⟩ := main_eq_ok.mp h
  obtain ⟨_, _, -, rfl⟩ := chargeLine_eq_ok.mp hline
  rfl

/-- The oracle prints its line exactly for a presentation that passes its checks. -/
theorem main_ok_iff :
    (∃ line, main crates env file = .ok line) ↔ ∃ p out, file = some p ∧ Passes crates env p out := by
  simp only [main_eq_ok, chargeLine_eq_ok]
  constructor
  · rintro ⟨_, p, out, price, hfile, hprice, hkey, hout, n, model, hdisclosed, -⟩
    exact ⟨p, out, hfile, ⟨by simp [hprice], hkey, hout, n, model, hdisclosed⟩⟩
  · rintro ⟨p, out, hfile, ⟨hprice, hkey, hout, n, model, hdisclosed⟩⟩
    obtain ⟨price, hprice⟩ := Option.isSome_iff_exists.mp hprice
    exact ⟨_, p, out, price, hfile, hprice, hkey, hout, n, model, hdisclosed, rfl⟩

/-! ## Whose server -/

/-- A line with `notary_ok` is printed only for a presentation under the
configured key that verifies and that authenticates the provider, so that its
session was one with the provider. -/
def ProviderOnly (crates : Crates) (source : crates.Presentation → TlsSession) (env : OracleEnv)
    (file : Option crates.Presentation) : Prop :=
  ∀ line, main crates env file = .ok line → line.notaryOk = true →
    ∃ p out, file = some p ∧ env.expectedPub = some (hexEncode (crates.verifyingKey p)) ∧
      crates.verify p = some out ∧ out.serverName = some SERVER_DOMAIN ∧
      (source p).server = SERVER_DOMAIN

/-- **Acceptance does not depend on the server.** The oracle's acceptance is sound
exactly for the presentations that fail one of its checks or that happen to
authenticate the provider: the server name itself is not compared. -/
theorem provider_only_iff {source : crates.Presentation → TlsSession} (hs : crates.Sound source) :
    ProviderOnly crates source env file ↔
      ∀ p out, file = some p → Passes crates env p out → out.serverName = some SERVER_DOMAIN := by
  constructor
  · intro h p out hfile hpass
    obtain ⟨line, hline⟩ := main_ok_iff.mpr ⟨p, out, hfile, hpass⟩
    -- `verify` answers once, so the accepted output is the one that passed
    obtain ⟨p', out', hfile', -, hout', hname, -⟩ := h line hline (notaryOk_of_main hline)
    obtain rfl := Option.some.inj (hfile.symm.trans hfile')
    obtain rfl := Option.some.inj (hpass.verified.symm.trans hout')
    exact hname
  · intro h line hline _
    obtain ⟨p, out, hfile, hpass⟩ := main_ok_iff.mp ⟨line, hline⟩
    have hname := h p out hfile hpass
    exact ⟨p, out, hfile, hpass.key, hpass.verified, hname, hs.server p out _ hpass.verified hname⟩

/-! Crates that disclose a whole session, and one answer of two servers. -/

def demoUsage (s : Text) : Option UInt64 :=
  (after? "\"total_tokens\":".toList s).bind fun rest => parseU64 (rest.takeWhile Char.isDigit)

def demoCrates : Crates where
  Presentation := TlsSession
  build a s := if a = s then some a else none
  verifyingKey _ := [0x1a]
  verify s := some ⟨some s.server, 0, some ⟨s.response.body.map fun c => (UInt8.ofNat c.toNat, true)⟩⟩
  usage := demoUsage
  utcTime _ := some []

theorem demoCrates_sound : demoCrates.Sound id where
  server p out name h hname := by
    cases h
    exact Option.some.inj hname
  built a s p out h _ := by
    have hsame : a = s ∧ some a = some p := Option.ite_none_right_eq_some.mp h
    obtain ⟨rfl, hp⟩ := hsame
    exact ⟨(Option.some.inj hp).symm, (Option.some.inj hp).symm⟩

def demoEnv : OracleEnv :=
  ⟨none, some "1".toList, none, fun _ => some "1A\n".toList⟩

def demoResponse : HttpResponse where
  status := 200
  body := "\x7b\"model\":\"m\",\"usage\":\x7b\"total_tokens\":28\x7d\x7d".toList
  message := none

theorem provider_only_demo :
    main demoCrates demoEnv (some ⟨0, SERVER_DOMAIN, demoResponse⟩) = .ok ⟨28, 28, ['m'], true⟩ ∧
      ProviderOnly demoCrates id demoEnv (some (⟨0, SERVER_DOMAIN, demoResponse⟩ : TlsSession)) :=
  ⟨by decide, (provider_only_iff demoCrates_sound).mpr fun _ _ hfile hpass => by
    cases hfile
    cases hpass.verified
    rfl⟩

/-- The same answer from another server is charged as well. -/
theorem other_server_accepted : ¬ ∀ (crates : Crates) (source : crates.Presentation → TlsSession)
    (env : OracleEnv) (file : Option crates.Presentation), crates.Sound source →
      ProviderOnly crates source env file := by
  intro h
  have hline : main demoCrates demoEnv (some ⟨0, "example.org".toList, demoResponse⟩) =
      .ok ⟨28, 28, ['m'], true⟩ := by decide
  obtain ⟨p, out, hfile, -, -, -, hserver⟩ := h demoCrates id demoEnv _ demoCrates_sound _ hline rfl
  cases hfile
  revert hserver
  decide

end Bartok.Proof
