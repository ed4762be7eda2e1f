import Bartok.Proof.Pipeline
import Mathlib.Tactic.IntervalCases

/-!
# Whose proof an answer carries

Each prover run opens a TLS session of its own, numbered after all the sessions
of earlier calls. What an answer reports is read from the working directory, so
it is from the last run exactly when that run has replaced every file.
-/

namespace Bartok.Proof

open Foundation Text Bridge

section Files

variable {P : Type} {dir dir' : WorkDir P} {model : Text} {s : TlsSession} {done n : ℕ}
  {source : P → TlsSession}

/-- Every file is from one of the first `n` sessions. -/
structure WorkDir.Before (source : P → TlsSession) (n : ℕ) (dir : WorkDir P) : Prop where
  response : ∀ s ∈ dir.response, s.id < n
  attestation : ∀ s ∈ dir.attestation, s.id < n
  secrets : ∀ s ∈ dir.secrets, s.id < n
  presentation : ∀ p ∈ dir.presentation, (source p).id < n

theorem WorkDir.Before.set (h : dir.Before source n) {file : ProverFile} {t : Option TlsSession}
    (ht : ∀ s ∈ t, s.id < n) : (dir.set t file).Before source n := by
  cases file with
  | response => exact ⟨ht, h.attestation, h.secrets, h.presentation⟩
  | attestation => exact ⟨h.response, ht, h.secrets, h.presentation⟩
  | secrets => exact ⟨h.response, h.attestation, ht, h.presentation⟩

theorem WorkDir.Before.apply (h : dir.Before source n) (hs : s.id < n) (step : ProverStep) :
    (step.apply s dir).Before source n := by
  cases step with
  | log line => exact h
  | create file => exact h.set (by simp)
  | write file => exact h.set (by simpa using hs)

theorem WorkDir.Before.mono {m : ℕ} (h : dir.Before source n) (hle : n ≤ m) :
    dir.Before source m :=
  ⟨fun s hs => (h.response s hs).trans_le hle, fun s hs => (h.attestation s hs).trans_le hle,
    fun s hs => (h.secrets s hs).trans_le hle, fun p hp => (h.presentation p hp).trans_le hle⟩

theorem WorkDir.Before.steps (hs : s.id < n) :
    ∀ {steps : List ProverStep} {dir : WorkDir P}, dir.Before source n →
      (steps.foldl (ProverStep.apply s) dir).Before source n
  | [], _, h => h
  | step :: _, _, h => (h.apply hs step).steps hs

/-- A run, however far it gets, adds its own session only. -/
theorem WorkDir.Before.prove (h : dir.Before source s.id) :
    (dir.prove model s done).Before source (s.id + 1) :=
  (h.mono (Nat.le_succ _)).steps (Nat.lt_succ_self _)

theorem presentation_prove : (dir.prove model s done).presentation = dir.presentation := by
  unfold WorkDir.prove
  generalize (prover model s).take done = steps
  induction steps generalizing dir with
  | nil => rfl
  | cons step steps ih =>
      rw [List.foldl_cons, ih]
      cases step with
      | log line => rfl
      | create file => cases file <;> rfl
      | write file => cases file <;> rfl

/-- After nine steps all the files are written. -/
theorem prove_written (hdone : 9 ≤ done) :
    dir.prove model s done = ⟨some s, some s, some s, dir.presentation⟩ := by
  obtain ⟨k, rfl⟩ := Nat.exists_eq_add_of_le' hdone
  rcases k with _ | _ | k
  · rfl
  · rfl
  · have hall : (prover model s).take (k + 2 + 9) = prover model s :=
      List.take_of_length_le (by simp [prover])
    unfold WorkDir.prove
    rw [hall]
    rfl

/-- The secrets are the last file to be replaced. -/
theorem secrets_unwritten (hdone : done < 9) :
    ∀ t ∈ (dir.prove model s done).secrets, t ∈ dir.secrets := by
  intro t ht
  interval_cases done
  -- after the eighth step the file is empty; before it, untouched
  all_goals first | exact ht | cases ht

/-- The run that ends the loop finds only files of earlier sessions. -/
theorem tryModels_last {runs : ℕ → ProveRun} :
    ∀ {models : List String} {id : ℕ} {dir : WorkDir P}, dir.Before source id →
      tryModels runs id dir models = (dir', some (model, s)) →
        ∃ dir₀ : WorkDir P, dir₀.Before source s.id ∧
          dir' = dir₀.prove model s (runs s.id).done
  | [], _, _, _, h => by simp [tryModels] at h
  | m :: models, id, dir, hdir, h => by
      simp only [tryModels] at h
      split at h
      · cases h
        exact ⟨dir, hdir, rfl⟩
      · exact tryModels_last (hdir.prove (s := ⟨id, _, _⟩)) h

end Files

section Present

variable {crates : Crates} {dir : WorkDir crates.Presentation} {done : ℕ} {p : crates.Presentation}

theorem response_present : (dir.present crates done).response = dir.response := by
  unfold WorkDir.present
  split
  · rfl
  · split <;> rfl

/-- A presentation on disk was built by this run, or was there before. -/
theorem present_cases (h : (dir.present crates done).presentation = some p) :
    dir.presentation = some p ∨ 2 ≤ done ∧ ∃ a s, dir.attestation = some a ∧
      dir.secrets = some s ∧ crates.build a s = some p := by
  unfold WorkDir.present at h
  split at h
  · exact .inl h
  · next p' hbuild =>
      split at h
      · exact .inl h
      · cases h
      · next hzero hone =>
          cases h
          obtain ⟨a, ha, hbuild⟩ := Option.bind_eq_some_iff.mp hbuild
          obtain ⟨s, hs, hbuild⟩ := Option.bind_eq_some_iff.mp hbuild
          have hdone : 2 ≤ done := by
            rcases done with _ | _ | done
            · exact absurd rfl hzero
            · exact absurd rfl hone
            · omega
          exact .inr ⟨hdone, a, s, ha, hs, hbuild⟩

theorem present_written (hdone : 2 ≤ done) {a s : TlsSession} (ha : dir.attestation = some a)
    (hs : dir.secrets = some s) (hbuild : crates.build a s = some p) :
    (dir.present crates done).presentation = some p := by
  obtain ⟨k, rfl⟩ := Nat.exists_eq_add_of_le' hdone
  simp [WorkDir.present, ha, hs, hbuild]

end Present

/-! ## Answers of the last session -/

section Answers

variable {crates : Crates} {source : crates.Presentation → TlsSession} {c : Call crates}
  {tier : Tier} {dir : WorkDir crates.Presentation} {model : Text} {s : TlsSession}
  {line : OracleLine}

/-- What the answer reports is read from a presentation of the session, and its
text from a response of no other session. -/
structure DerivesFrom (source : crates.Presentation → TlsSession) (env : OracleEnv)
    (dir : WorkDir crates.Presentation) (a : Answer) (s : TlsSession) : Prop where
  proof : ∃ p line, dir.presentation = some p ∧ source p = s ∧
    main crates env (some p) = .ok line ∧ a.model = String.ofList line.model ∧
    a.tokens = asDouble line.totalTokens.toNat ∧ a.charge = asDouble line.charge.toNat
  text : (a.reply, a.reasoning) = replyText dir.response
  response : ∀ t ∈ dir.response, t = s

/-- An answer is from the session of the last prover run of its call. -/
def OwnProof (source : crates.Presentation → TlsSession) (c : Call crates) : Prop :=
  ∀ dir a, runAnswer c = (dir, .ok a) → ∃ tier dir₁ model s, c.Reports tier dir₁ model s ∧
    DerivesFrom source (c.oracleEnv tier) dir a s

/-- The prover run of session `s` writes all its files, and so does the presenter. -/
structure Call.Completes (c : Call crates) (s : TlsSession) : Prop where
  proved : 9 ≤ (c.proves s.id).done
  presented : 2 ≤ c.presented
  built : (crates.build s s).isSome

theorem Call.Reports.unique {tier' : Tier} {dir' : WorkDir crates.Presentation} {model' : Text}
    {s' : TlsSession} (h : c.Reports tier dir model s) (h' : c.Reports tier' dir' model' s') :
    tier = tier' ∧ dir = dir' ∧ model = model' ∧ s = s' := by
  obtain ⟨htier, -, hloop⟩ := h
  obtain ⟨htier', -, hloop'⟩ := h'
  obtain rfl : tier = tier' := by simpa using htier.symm.trans htier'
  simpa [and_assoc] using hloop.symm.trans hloop'

/-- The last run is the prefix of its body that it completed, on top of files of
earlier sessions. -/
theorem Call.Reports.last (hdir : c.dir.Before source c.sessions)
    (h : c.Reports tier dir model s) :
    ∃ dir₀ : WorkDir crates.Presentation, dir₀.Before source s.id ∧
      dir = dir₀.prove model s (c.proves s.id).done :=
  tryModels_last hdir h.2.2

theorem verified_of_main {env : OracleEnv} {p : crates.Presentation}
    (h : main crates env (some p) = .ok line) : ∃ out, crates.verify p = some out := by
  obtain ⟨p', out, _, hp, -, -, hout, -⟩ := main_eq_ok.mp h
  cases hp
  exact ⟨out, hout⟩

/-- A verified presentation of the last session was built in this call, from files
that the last run had completed. -/
theorem completes_of_source (hs : crates.Sound source) (hdir : c.dir.Before source c.sessions)
    (hrep : c.Reports tier dir model s) {p : crates.Presentation}
    (hp : (dir.present crates c.presented).presentation = some p)
    {out : PresentationOutput} (hout : crates.verify p = some out) (hsource : source p = s) :
    c.Completes s := by
  obtain ⟨dir₀, hbefore, rfl⟩ := hrep.last hdir
  rcases present_cases hp with hold | ⟨hdone, a, t, ha, ht, hbuild⟩
  -- a presentation that was there is of an earlier session
  · rw [presentation_prove] at hold
    have hlt := hbefore.presentation p hold
    rw [hsource] at hlt
    exact absurd hlt (lt_irrefl _)
  · obtain ⟨ha', ht'⟩ := hs.built a t p out hbuild hout
    obtain rfl : s = a := hsource.symm.trans ha'
    obtain rfl : s = t := hsource.symm.trans ht'
    -- without its last write the run leaves the secrets of an earlier session
    refine ⟨?_, hdone, by simp [hbuild]⟩
    by_contra hshort
    have hlt := hbefore.secrets s (secrets_unwritten (Nat.lt_of_not_le hshort) s ht)
    exact absurd hlt (lt_irrefl _)

/-- **An answer carries its own proof** exactly when no presentation is accepted
that the last prover run and the presenter did not both complete. -/
theorem own_proof_iff (hs : crates.Sound source) (hdir : c.dir.Before source c.sessions) :
    OwnProof source c ↔ ∀ tier dir model s line, c.Reports tier dir model s →
      c.Accepts tier model (dir.present crates c.presented).presentation line → c.Completes s := by
  constructor
  · intro h tier dir model s line hrep hacc
    obtain ⟨tier', dir', model', s', hrep', ⟨p, line', hp, hsource, hmain, -⟩, -, -⟩ :=
      h _ _ (runAnswer_eq_ok.mpr ⟨tier, dir, model, s, line, hrep, rfl, hacc, rfl⟩)
    obtain ⟨rfl, rfl, rfl, rfl⟩ := hrep.unique hrep'
    obtain ⟨out, hout⟩ := verified_of_main hmain
    exact completes_of_source hs hdir hrep hp hout hsource
  · intro h dir a hret
    obtain ⟨tier, dir₁, model, s, line, hrep, rfl, hacc, rfl⟩ := runAnswer_eq_ok.mp hret
    refine ⟨tier, dir₁, model, s, hrep, ?_⟩
    obtain ⟨hproved, hpresented, hbuilt⟩ := h tier dir₁ model s line hrep hacc
    obtain ⟨p, hbuild⟩ := Option.isSome_iff_exists.mp hbuilt
    obtain ⟨dir₀, -, rfl⟩ := hrep.last hdir
    rw [prove_written hproved] at hacc ⊢
    have hp := @present_written _ ⟨some s, some s, some s, dir₀.presentation⟩ _ _ hpresented _ _
      rfl rfl hbuild
    have hmain : main crates (c.oracleEnv tier) (some p) = .ok line := hp ▸ hacc.2.1
    obtain ⟨out, hout⟩ := verified_of_main hmain
    refine ⟨⟨p, line, hp, (hs.built s s p out hbuild hout).1, hmain, rfl, rfl, rfl⟩, rfl, ?_⟩
    intro t ht
    rw [response_present] at ht
    exact (Option.some.inj ht).symm

end Answers

/-! A second message: the files of the first one are on disk. -/

def answered (reply : String) (tokens : String) : HttpResponse where
  status := 200
  body := ("\x7b\"model\":\"nvidia/nemotron-nano-9b-v2:free\",\"usage\":\x7b\"total_tokens\":" ++ tokens ++
    "\x7d\x7d").toList
  message := some ⟨jsString reply, none⟩

def firstSession : TlsSession := ⟨0, SERVER_DOMAIN, answered "one" "28"⟩

/-- The prover takes `done` steps, and then the presenter and the oracle run. -/
def secondCall (done : ℕ) : Call demoCrates where
  tier := "basic"
  apiKey := true
  truncated := false
  env := demoEnv
  sessions := 1
  dir := ⟨some firstSession, some firstSession, some firstSession, some firstSession⟩
  proves _ := ⟨answered "two" "31", done, []⟩
  presented := 2
  oracle := ⟨true, []⟩

theorem secondCall_before (done : ℕ) :
    (secondCall done).dir.Before id (secondCall done).sessions := by
  refine ⟨?_, ?_, ?_, ?_⟩ <;> rintro _ ⟨⟩ <;> exact Nat.zero_lt_one

theorem own_proof_demo :
    (runAnswer (secondCall 11)).2.toOption.map (fun a => (a.reply, a.charge)) =
        some (jsString "two", 31) ∧
      OwnProof id (secondCall 11) :=
  ⟨by decide, (own_proof_iff demoCrates_sound (secondCall_before 11)).mpr
    fun _ _ _ _ _ _ _ => ⟨(by decide : 9 ≤ 11), le_rfl, by simp [demoCrates]⟩⟩

/-- A prover that ends after its log line: the first message is paid once more. -/
theorem stale_proof_accepted : ¬ ∀ (crates : Crates) (source : crates.Presentation → TlsSession)
    (c : Call crates), crates.Sound source → c.dir.Before source c.sessions → OwnProof source c := by
  intro h
  have hreturns : (runAnswer (secondCall 3)).2.toOption.map (fun a => (a.reply, a.charge)) =
      some (jsString "one", 28) := by decide
  cases hret : (runAnswer (secondCall 3)).2 with
  | error reason => simp [hret, Except.toOption] at hreturns
  | ok a =>
      have heq : runAnswer (secondCall 3) = (_, .ok a) := Prod.ext rfl hret
      obtain ⟨_, dir, _, s, _, hrep, hdir, -⟩ := runAnswer_eq_ok.mp heq
      obtain ⟨_, _, _, s', hrep', ⟨p, _, hp, hsource, hmain, -⟩, -, -⟩ :=
        h demoCrates id (secondCall 3) demoCrates_sound (secondCall_before 3) _ a heq
      obtain ⟨-, -, -, rfl⟩ := hrep.unique hrep'
      obtain ⟨out, hout⟩ := verified_of_main hmain
      rw [hdir] at hp
      have := (completes_of_source demoCrates_sound (secondCall_before 3) hrep hp hout hsource).proved
      exact absurd this (by decide : ¬ 9 ≤ 3)

end Bartok.Proof
