import Bartok.Foundation.Double
import Bartok.Foundation.JsonValue
import Bartok.Proof.Oracle

/-!
# The proof pipeline

`runAnswer` runs the prover for one model of the tier after the other, then the
presenter and the oracle, all in one working directory whose files outlive the
call. A program leaves behind what it wrote before it ended, failed, panicked or
was killed, so its run is a prefix of its body. The bridge reads the prover's
success off the output and does not look at the exit codes of the first two.

Here the oracle hands over its line as a record; `OracleOutput` has the text that it is
read from. Its numbers come out of `JSON.parse`, as doubles.
-/

namespace Bartok.Proof

open Foundation Text Bridge

/-! ## The working directory -/

/-- The prover's files by the session they are from; `none` is a file that is
missing or does not parse, as one whose write was cut short. -/
structure WorkDir (Presentation : Type) where
  response : Option TlsSession
  attestation : Option TlsSession
  secrets : Option TlsSession
  presentation : Option Presentation

inductive ProverFile
  | response
  | attestation
  | secrets
deriving DecidableEq

namespace WorkDir

variable {P : Type} (dir : WorkDir P)

def set (s : Option TlsSession) : ProverFile → WorkDir P
  | .response => { dir with response := s }
  | .attestation => { dir with attestation := s }
  | .secrets => { dir with secrets := s }

end WorkDir

/-! ## openrouter_prove -/

/-- A step of `prover` that leaves something behind. -/
inductive ProverStep
  | log (line : Text)
  /-- `fs::write` opens and empties the file first. -/
  | create (file : ProverFile)
  | write (file : ProverFile)

/-- `prover`, from the opened connection to its end. -/
def prover (model : Text) (s : TlsSession) : List ProverStep :=
  [.log ("Sending request to openrouter.ai/api/v1/chat/completions (model=".toList ++ model ++ [')']),
    .log ("Got response: ".toList ++ Nat.toDigits 10 s.response.status),
    .log ("Response body:\n".toList ++ s.response.body),
    .create .response, .write .response,
    .create .attestation, .write .attestation,
    .create .secrets, .write .secrets,
    .log "\nNotarization completed successfully against openrouter.ai!".toList,
    .log "Wrote openrouter.attestation.tlsn + openrouter.secrets.tlsn".toList]

/-- One run: the response it gets, how many of its steps it takes, and what else
is printed, by `cargo`, an error or a panic. -/
structure ProveRun where
  response : HttpResponse
  done : ℕ
  noise : Text

def ProverStep.out : ProverStep → Text
  | .log line => line ++ ['\n']
  | _ => []

section Prove

variable {P : Type}

def ProverStep.apply (s : TlsSession) (dir : WorkDir P) : ProverStep → WorkDir P
  | .log _ => dir
  | .create file => dir.set none file
  | .write file => dir.set (some s) file

def ProveRun.out (run : ProveRun) (model : Text) (s : TlsSession) : Text :=
  ((prover model s).take run.done).flatMap ProverStep.out ++ run.noise

def WorkDir.prove (dir : WorkDir P) (model : Text) (s : TlsSession) (done : ℕ) : WorkDir P :=
  ((prover model s).take done).foldl (ProverStep.apply s) dir

/-- The loop over the models of a tier; `runs id` is the run that opens session
`id`. It stops at the first run whose output shows a 200. -/
def tryModels (runs : ℕ → ProveRun) : ℕ → WorkDir P → List String →
    WorkDir P × Option (Text × TlsSession)
  | _, dir, [] => (dir, none)
  | id, dir, m :: models =>
      let s : TlsSession := ⟨id, SERVER_DOMAIN, (runs id).response⟩
      let dir := dir.prove m.toList s (runs id).done
      if includes "Got response: 200".toList ((runs id).out m.toList s) then (dir, some (m.toList, s))
      else tryModels runs (id + 1) dir models

end Prove

/-! ## openrouter_present and openrouter_oracle -/

variable (crates : Crates)

/-- A run of the presenter that takes `done` of its two file steps. -/
def WorkDir.present (dir : WorkDir crates.Presentation) (done : ℕ) : WorkDir crates.Presentation :=
  match dir.attestation.bind fun a => dir.secrets.bind fun s => crates.build a s with
  | none => dir
  | some p =>
      match done with
      | 0 => dir
      | 1 => { dir with presentation := none }
      | _ => { dir with presentation := some p }

/-- A run of the oracle: whether it reaches the end of `main`, and what else is
printed. -/
structure OracleRun where
  finished : Bool
  noise : Text

/-- The line of an oracle run that exits with 0, as `lastJson` finds it where it comes whole;
else the text of the exception. -/
def oracleLine (env : OracleEnv) (file : Option crates.Presentation) (run : OracleRun) :
    Except Text OracleLine :=
  let failed (out : Text) : Except Text OracleLine :=
    .error (if includes "REJECTED".toList out then "oracle rejected: unknown notary".toList
      else "oracle verification failed".toList)
  if run.finished then
    match main crates env file with
    | .ok line => if line.notaryOk then .ok line else failed run.noise
    | .error failure => failed (failure.stderr ++ run.noise)
  else failed run.noise

/-! ## runAnswer -/

/-- `replace(/:free$/, '')`. -/
def baseName (model : JsString) : JsString :=
  if (utf16 ":free").isSuffixOf model then model.take (model.length - 5) else model

def jsString (s : String) : JsString := s.toList.map fun c => UInt16.ofNat c.toNat

/-- The reply and the reasoning, from the captured response. -/
def replyText (file : Option TlsSession) : JsString × Option JsString :=
  let message := (file.bind fun s => s.response.message).getD ⟨[], none⟩
  let reasoning := message.reasoning.filter (· ≠ [])
  let reply :=
    if message.content ≠ [] then message.content
    else if reasoning.isSome then jsString ("(The model spent its whole reply budget on internal " ++
      "reasoning. Ask again, or ask for a shorter answer.)")
    else jsString "(no text returned)"
  (reply, reasoning)

/-- What a call of `runAnswer` depends on: its arguments, the files it finds, and
how its sub-processes run. `sessions` TLS sessions have been opened before. -/
structure Call where
  tier : String
  apiKey : Bool
  /-- Whether `buildMessages` dropped turns. -/
  truncated : Bool
  env : OracleEnv
  sessions : ℕ
  dir : WorkDir crates.Presentation
  proves : ℕ → ProveRun
  presented : ℕ
  oracle : OracleRun

variable {crates} (c : Call crates)

/-- The oracle's environment, with the price of the tier. -/
def Call.oracleEnv (tier : Tier) : OracleEnv :=
  { c.env with pricePerToken := some (Nat.toDigits 10 (TIERS tier).pricePerToken) }

def Call.answer (file : Option TlsSession) (line : OracleLine) : Answer where
  reply := (replyText file).1
  reasoning := (replyText file).2
  truncated := c.truncated
  model := String.ofList line.model
  tier := c.tier
  tokens := asDouble line.totalTokens.toNat
  charge := asDouble line.charge.toNat

/-- Up to the presenter: the tier, and its model whose run showed a 200. -/
def Call.presents : WorkDir crates.Presentation × Except Text (Tier × Text) :=
  match tierEntry c.tier with
  | .missing => (c.dir, .error ("unknown tier: ".toList ++ c.tier.toList))
  | .inherited =>
      (c.dir, .error (if c.apiKey then "tierCfg.models is not iterable".toList
        else "OPENROUTER_API_KEY missing in zktls-spike/.env".toList))
  | .own tier =>
      if c.apiKey then
        match tryModels c.proves c.sessions c.dir (TIERS tier).models with
        | (dir, none) => (dir, .error "BUSY".toList)
        | (dir, some (model, _)) => (dir.present crates c.presented, .ok (tier, model))
      else (c.dir, .error "OPENROUTER_API_KEY missing in zktls-spike/.env".toList)

def runAnswer : WorkDir crates.Presentation × Except Text Answer :=
  match c.presents with
  | (dir, .error reason) => (dir, .error reason)
  | (dir, .ok (tier, model)) =>
      match oracleLine crates (c.oracleEnv tier) dir.presentation c.oracle with
      | .error reason => (dir, .error reason)
      | .ok line =>
          if (baseName (model.flatMap units)).isPrefixOf (baseName (line.model.flatMap units)) then
            (dir, .ok (c.answer dir.response line))
          else (dir, .error ("verified model mismatch: paid for ".toList ++ model ++
            ", proof says ".toList ++ line.model))

/-! ## When it returns -/

/-- The loop over the models ends with the run for `model`, which leaves `dir`. -/
def Call.Reports (tier : Tier) (dir : WorkDir crates.Presentation) (model : Text)
    (s : TlsSession) : Prop :=
  tierEntry c.tier = .own tier ∧ c.apiKey = true ∧
    tryModels c.proves c.sessions c.dir (TIERS tier).models = (dir, some (model, s))

/-- The oracle accepts the file, for the model that was asked for. -/
def Call.Accepts (tier : Tier) (model : Text) (file : Option crates.Presentation)
    (line : OracleLine) : Prop :=
  c.oracle.finished = true ∧ main crates (c.oracleEnv tier) file = .ok line ∧
    baseName (model.flatMap units) <+: baseName (line.model.flatMap units)

variable {c} {env : OracleEnv} {file : Option crates.Presentation} {line : OracleLine}
  {run : OracleRun}

theorem oracleLine_eq_ok :
    oracleLine crates env file run = .ok line ↔
      run.finished = true ∧ main crates env file = .ok line := by
  unfold oracleLine
  dsimp only
  constructor
  · intro h
    split at h
    · next hfinished =>
        split at h
        · next line' hmain =>
            rw [if_pos (notaryOk_of_main hmain)] at h
            exact ⟨hfinished, Except.ok.inj h ▸ hmain⟩
        · cases h
    · cases h
  · rintro ⟨hfinished, hmain⟩
    simp only [hfinished, hmain, notaryOk_of_main hmain, if_true]

theorem presents_eq_ok {dir : WorkDir crates.Presentation} {tier : Tier} {model : Text} :
    c.presents = (dir, .ok (tier, model)) ↔ ∃ dir₁ s, c.Reports tier dir₁ model s ∧
      dir = dir₁.present crates c.presented := by
  constructor
  · intro h
    unfold Call.presents at h
    split at h
    · cases h
    · cases h
    · next tier' htier =>
        split at h
        · next hkey =>
            split at h
            · cases h
            · next dir₁ model' s hloop =>
                cases h
                exact ⟨dir₁, s, ⟨htier, hkey, hloop⟩, rfl⟩
        · cases h
  · rintro ⟨dir₁, s, ⟨htier, hkey, hloop⟩, rfl⟩
    simp only [Call.presents, htier, hkey, hloop, if_true]

theorem runAnswer_eq_ok {dir : WorkDir crates.Presentation} {a : Answer} :
    runAnswer c = (dir, .ok a) ↔ ∃ tier dir₁ model s line, c.Reports tier dir₁ model s ∧
      dir = dir₁.present crates c.presented ∧ c.Accepts tier model dir.presentation line ∧
      a = c.answer dir.response line := by
  constructor
  · intro h
    unfold runAnswer at h
    split at h
    · cases h
    · next dir' tier model hpresents =>
        obtain ⟨dir₁, s, hreports, hdir⟩ := presents_eq_ok.mp hpresents
        split at h
        · cases h
        · next line hline =>
            split at h
            · next hbase =>
                cases h
                obtain ⟨hfinished, hmain⟩ := oracleLine_eq_ok.mp hline
                exact ⟨tier, dir₁, model, s, line, hreports, hdir,
                  ⟨hfinished, hmain, List.isPrefixOf_iff_prefix.mp hbase⟩, rfl⟩
            · cases h
  · rintro ⟨tier, dir₁, model, s, line, hreports, hdir, ⟨hfinished, hmain, hbase⟩, rfl⟩
    have hpresents := presents_eq_ok.mpr ⟨dir₁, s, hreports, hdir⟩
    have hline := oracleLine_eq_ok.mpr ⟨hfinished, hmain⟩
    have hprefix := List.isPrefixOf_iff_prefix.mpr hbase
    simp only [runAnswer, hpresents, hline, hprefix, if_true]

/-- What the files are after a call does not depend on the oracle. -/
theorem runAnswer_dir : (runAnswer c).1 = c.presents.1 := by
  unfold runAnswer
  split
  · next hpresents => rw [hpresents]
  · next hpresents =>
      rw [hpresents]
      split
      · rfl
      · split <;> rfl

end Bartok.Proof
