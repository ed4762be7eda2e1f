import Bartok.Foundation.Positions
import Bartok.Proof.Disclosure

/-!
# What a presentation may depend on

`present.rs` walks the spans of a parsed transcript and reveals some of them. The parser
is a parameter: of it only where the parts of a message stand is used. Two transcripts
with the same spans are presented alike if they agree on what is meant to be disclosed and
on the separators, whatever the key, the prompt and the answer are.
-/

namespace Bartok.Proof

open Foundation Text

/-! ## Parsed transcripts -/

/-- A header, and where its name and its value stand. -/
structure Header where
  span : Span
  name : Span
  value : Span
  /-- `without_value()`. -/
  withoutValue : Finset ℕ
  withoutValue_within : withoutValue ⊆ span.positions
  hides_value : Disjoint withoutValue value.positions

/-- A member of an object, and where its key stands. -/
structure KeyValue where
  span : Span
  key : Span
  key_within : key.positions ⊆ span.positions

inductive JsonValue where
  | object (elems : List KeyValue)
  | other

inductive BodyContent where
  | json (root : JsonValue)
  | unknown

structure Body where
  span : Span
  content : BodyContent

/-- A request or a response: its first line, its headers and its body. -/
structure HttpMessage where
  span : Span
  line : Span
  headers : List Header
  body : Option Body
  /-- `without_data()`. -/
  withoutData : Finset ℕ
  withoutData_within : withoutData ⊆ span.positions
  hides_headers : ∀ h ∈ headers, Disjoint withoutData h.span.positions
  hides_body : ∀ b ∈ body, Disjoint withoutData b.span.positions

structure Request extends HttpMessage where
  target : Span
  target_within : target.positions ⊆ line.positions
  hides_target : Disjoint withoutData target.positions

structure HttpTranscript where
  requests : List Request
  responses : List HttpMessage

/-- The bytes of a connection, in both directions. -/
structure Transcript where
  sent : List UInt8
  received : List UInt8

/-- The members of the root, where the body is a JSON object. -/
def members : Option Body → List KeyValue
  | some ⟨_, .json (.object elems)⟩ => elems
  | _ => []

/-! ## The presentation -/

/-- `u8::to_ascii_lowercase`. -/
def toAsciiLowercase (x : UInt8) : UInt8 := if 0x41 ≤ x ∧ x ≤ 0x5A then x + 0x20 else x

def eqIgnoreAsciiCase (a b : List UInt8) : Bool :=
  a.map toAsciiLowercase == b.map toAsciiLowercase

/-- `header::AUTHORIZATION`. -/
def AUTHORIZATION : List UInt8 := encodeUtf8 "authorization".toList

def isAuthorization (b : List UInt8) (h : Header) : Bool :=
  eqIgnoreAsciiCase (h.name.text b) AUTHORIZATION

/-- `["model", "max_tokens"]`. -/
def requestKeys : List Text := ["model".toList, "max_tokens".toList]

def revealsMember (b : List UInt8) (kv : KeyValue) : Bool :=
  decide (kv.key.text b ∈ requestKeys.map encodeUtf8)

/-- The first member with this key. -/
def memberAt (b : List UInt8) (elems : List KeyValue) (path : Text) : Option KeyValue :=
  elems.find? fun kv => kv.key.text b == encodeUtf8 path

/-- What `reveal_sent` is called with, in order. -/
def revealSent (b : List UInt8) (request : Request) : List (Finset ℕ) :=
  request.withoutData :: request.target.positions ::
    (request.headers.map (fun h =>
        if isAuthorization b h then h.withoutValue else h.span.positions) ++
      ((members request.body).filter (revealsMember b)).map (·.span.positions))

/-- What `reveal_recv` is called with, in order. -/
def revealRecv (b : List UInt8) (response : HttpMessage) : List (Finset ℕ) :=
  response.withoutData :: (response.headers.map (·.span.positions) ++
    (paths.filterMap (memberAt b (members response.body))).map (·.span.positions))

/-- The revealed positions of both directions. -/
structure Revealed where
  sent : Finset ℕ
  received : Finset ℕ
deriving DecidableEq

/-- `main`, up to the transcript proof. A transcript that does not parse is an error, and
one without a request or a response a panic. -/
def present (parse : Transcript → Option HttpTranscript) (t : Transcript) : Option Revealed := do
  let transcript ← parse t
  let request ← transcript.requests[0]?
  let response ← transcript.responses[0]?
  some ⟨allOf (revealSent t.sent request), allOf (revealRecv t.received response)⟩

/-! ## What two transcripts agree on -/

/-- The request line, the names of the headers, the values but that of `Authorization`, and
the members `model` and `max_tokens` of the body. -/
structure AgreeSent (request : Request) (b b' : List UInt8) : Prop where
  line : AgreeOn b b' request.line.positions
  names : ∀ h ∈ request.headers, AgreeOn b b' h.name.positions
  values : ∀ h ∈ request.headers, isAuthorization b h = false → AgreeOn b b' h.value.positions
  named : ∀ kv ∈ members request.body, (revealsMember b kv ∨ revealsMember b' kv) →
    AgreeOn b b' kv.span.positions

/-- The status line, the headers, and the first `id`, `model` and `usage` of the body. -/
structure AgreeRecv (response : HttpMessage) (b b' : List UInt8) : Prop where
  status : AgreeOn b b' response.line.positions
  headers : ∀ h ∈ response.headers, AgreeOn b b' h.span.positions
  firsts : ∀ path ∈ paths, ∀ kv, (memberAt b (members response.body) path = some kv ∨
    memberAt b' (members response.body) path = some kv) → AgreeOn b b' kv.span.positions

/-- What is neither in the first line nor in a header nor in the body. -/
def HttpMessage.Outside (m : HttpMessage) (i : ℕ) : Prop :=
  i ∈ m.span.positions ∧ i ∉ m.line.positions ∧ (∀ h ∈ m.headers, i ∉ h.span.positions) ∧
    ∀ body ∈ m.body, i ∉ body.span.positions

/-- What is neither in the name of the header nor in its value. -/
def Header.separators (h : Header) : Finset ℕ :=
  h.span.positions \ (h.name.positions ∪ h.value.positions)

/-- The colons, white space and line ends of a head. -/
structure SameSeparators (m : HttpMessage) (b b' : List UInt8) : Prop where
  outside : ∀ i, m.Outside i → b[i]? = b'[i]?
  headers : ∀ h ∈ m.headers, AgreeOn b b' h.separators

section Noninterference

variable {m : HttpMessage} {request : Request} {response : HttpMessage} {h : Header}
  {b b' : List UInt8}

/-- The bytes outside the data are those of the first line and the separators. -/
theorem agreeOn_withoutData (hline : AgreeOn b b' m.line.positions)
    (hout : ∀ i, m.Outside i → b[i]? = b'[i]?) : AgreeOn b b' m.withoutData := by
  intro i hi
  by_cases hl : i ∈ m.line.positions
  · exact hline hl
  · refine hout i ⟨m.withoutData_within hi, hl, fun h hh => ?_, fun body hbody => ?_⟩
    · exact Finset.disjoint_left.mp (m.hides_headers h hh) hi
    · exact Finset.disjoint_left.mp (m.hides_body body hbody) hi

/-- A header is its name, its value and the separators. -/
theorem agreeOn_header (hname : AgreeOn b b' h.name.positions)
    (hvalue : AgreeOn b b' h.value.positions) (hsep : AgreeOn b b' h.separators) :
    AgreeOn b b' h.span.positions := by
  intro i hi
  by_cases hn : i ∈ h.name.positions
  · exact hname hn
  by_cases hv : i ∈ h.value.positions
  · exact hvalue hv
  · exact hsep (Finset.mem_coe.mpr (Finset.mem_sdiff.mpr ⟨hi, by simp [hn, hv]⟩))

/-- Without its value a header is its name and the separators. -/
theorem agreeOn_withoutValue (hname : AgreeOn b b' h.name.positions)
    (hsep : AgreeOn b b' h.separators) : AgreeOn b b' h.withoutValue := by
  intro i hi
  by_cases hn : i ∈ h.name.positions
  · exact hname hn
  · have hv : i ∉ h.value.positions := Finset.disjoint_left.mp h.hides_value hi
    exact hsep (Finset.mem_coe.mpr
      (Finset.mem_sdiff.mpr ⟨h.withoutValue_within hi, by simp [hn, hv]⟩))

/-- A member that is the same in both has the same key. -/
theorem key_text {kv : KeyValue} (hkv : AgreeOn b b' kv.span.positions) :
    kv.key.text b = kv.key.text b' :=
  (hkv.mono kv.key_within).text

theorem AgreeSent.isAuthorization (hs : AgreeSent request b b') (hh : h ∈ request.headers) :
    isAuthorization b h = Proof.isAuthorization b' h := by
  rw [Proof.isAuthorization, Proof.isAuthorization, (hs.names h hh).text]

theorem AgreeSent.revealsMember {kv : KeyValue} (hs : AgreeSent request b b')
    (hkv : kv ∈ members request.body) : revealsMember b kv = Proof.revealsMember b' kv := by
  by_cases hone : Proof.revealsMember b kv ∨ Proof.revealsMember b' kv
  · rw [Proof.revealsMember, Proof.revealsMember, key_text (hs.named kv hkv hone)]
  · rw [not_or] at hone
    rw [Bool.eq_false_of_not_eq_true hone.1, Bool.eq_false_of_not_eq_true hone.2]

/-- The same is revealed of both requests. -/
theorem AgreeSent.revealSent (hs : AgreeSent request b b') :
    revealSent b request = Proof.revealSent b' request := by
  have hheaders : ∀ h ∈ request.headers,
      (if Proof.isAuthorization b h then h.withoutValue else h.span.positions) =
        if Proof.isAuthorization b' h then h.withoutValue else h.span.positions := by
    intro h hh
    rw [hs.isAuthorization hh]
  rw [Proof.revealSent, Proof.revealSent, List.map_congr_left hheaders,
    List.filter_congr fun kv hkv => hs.revealsMember hkv]

/-- And they agree on it. -/
theorem AgreeSent.agreeOn (hs : AgreeSent request b b')
    (hsep : SameSeparators request.toHttpMessage b b') :
    ∀ s ∈ Proof.revealSent b request, AgreeOn b b' s := by
  intro s hmem
  rw [Proof.revealSent, List.mem_cons, List.mem_cons, List.mem_append] at hmem
  rcases hmem with rfl | rfl | hmem | hmem
  · exact agreeOn_withoutData hs.line hsep.outside
  · exact hs.line.mono request.target_within
  · obtain ⟨h, hh, rfl⟩ := List.mem_map.mp hmem
    split_ifs with hauth
    · exact agreeOn_withoutValue (hs.names h hh) (hsep.headers h hh)
    · exact agreeOn_header (hs.names h hh) (hs.values h hh (Bool.eq_false_of_not_eq_true hauth))
        (hsep.headers h hh)
  · obtain ⟨kv, hkv, rfl⟩ := List.mem_map.mp hmem
    exact hs.named kv (List.mem_filter.mp hkv).1 (.inl (List.mem_filter.mp hkv).2)

/-- A member that both have is not the first of one of them only. -/
theorem find_congr {elems : List KeyValue} {path : Text}
    (hfirst : ∀ kv, (memberAt b elems path = some kv ∨ memberAt b' elems path = some kv) →
      AgreeOn b b' kv.span.positions) :
    memberAt b elems path = memberAt b' elems path := by
  induction elems with
  | nil => rfl
  | cons kv elems ih =>
      unfold memberAt at hfirst ih ⊢
      by_cases hone : kv.key.text b = encodeUtf8 path ∨ kv.key.text b' = encodeUtf8 path
      · have hkey : kv.key.text b = kv.key.text b' :=
          key_text (hfirst kv (hone.imp (fun h => by simp [h]) (fun h => by simp [h])))
        have hb : kv.key.text b' = encodeUtf8 path := hone.elim (hkey ▸ ·) id
        simp [hkey, hb]
      · rw [not_or] at hone
        simp only [List.find?_cons, beq_eq_false_iff_ne.mpr hone.1,
          beq_eq_false_iff_ne.mpr hone.2] at hfirst ⊢
        exact ih hfirst

/-- The same is revealed of both responses. -/
theorem AgreeRecv.revealRecv (hr : AgreeRecv response b b') :
    revealRecv b response = Proof.revealRecv b' response := by
  have hfind : ∀ path ∈ paths, memberAt b (members response.body) path =
      memberAt b' (members response.body) path :=
    fun path hpath => find_congr (hr.firsts path hpath)
  rw [Proof.revealRecv, Proof.revealRecv, List.filterMap_congr hfind]

theorem AgreeRecv.agreeOn (hr : AgreeRecv response b b')
    (hout : ∀ i, response.Outside i → b[i]? = b'[i]?) :
    ∀ s ∈ Proof.revealRecv b response, AgreeOn b b' s := by
  intro s hmem
  rw [Proof.revealRecv, List.mem_cons, List.mem_append] at hmem
  rcases hmem with rfl | hmem | hmem
  · exact agreeOn_withoutData hr.status hout
  · obtain ⟨h, hh, rfl⟩ := List.mem_map.mp hmem
    exact hr.headers h hh
  · obtain ⟨kv, hkv, rfl⟩ := List.mem_map.mp hmem
    obtain ⟨path, hpath, hfind⟩ := List.mem_filterMap.mp hkv
    exact hr.firsts path hpath kv (.inl hfind)

end Noninterference

/-! ## Two transcripts presented alike -/

/-- Both are presented, with the same positions and the same bytes at them. -/
def PresentedAlike (parse : Transcript → Option HttpTranscript) (t t' : Transcript) : Prop :=
  ∃ revealed, present parse t = some revealed ∧ present parse t' = some revealed ∧
    AgreeOn t.sent t'.sent revealed.sent ∧ AgreeOn t.received t'.received revealed.received

/-- The key, the prompt and the answer do not show. -/
theorem presented_alike {parse : Transcript → Option HttpTranscript} {t t' : Transcript}
    {transcript : HttpTranscript} {request : Request} {response : HttpMessage}
    (ht : parse t = some transcript) (ht' : parse t' = some transcript)
    (hrequests : transcript.requests = [request]) (hresponses : transcript.responses = [response])
    (hsent : AgreeSent request t.sent t'.sent)
    (hrecv : AgreeRecv response t.received t'.received)
    (hsep : SameSeparators request.toHttpMessage t.sent t'.sent)
    (hout : ∀ i, response.Outside i → t.received[i]? = t'.received[i]?) :
    PresentedAlike parse t t' := by
  have hpresent : ∀ u, parse u = some transcript → present parse u =
      some ⟨allOf (revealSent u.sent request), allOf (revealRecv u.received response)⟩ := by
    intro u hu
    simp [present, hu, hrequests, hresponses]
  refine ⟨_, hpresent t ht, ?_, ?_, ?_⟩
  · rw [hpresent t' ht', hsent.revealSent, hrecv.revealRecv]
  · exact agreeOn_allOf.mpr (hsent.agreeOn hsep)
  · exact agreeOn_allOf.mpr (hrecv.agreeOn hout)

/-! ## A call -/

/-- A call with this white space in front of this key, this prompt and this answer. -/
def sampleCall (space key prompt answer : UInt8) : Transcript where
  sent := encodeUtf8 "POST / HTTP/1.1\r\nauthorization:".toList ++
    [space, key] ++ encodeUtf8 "\r\n\r\n\x7b\"model\":1,\"messages\":".toList ++
    [prompt] ++ encodeUtf8 ",\"max_tokens\":2\x7d".toList
  received := encodeUtf8 "HTTP/1.1 200 OK\r\n\r\n\x7b\"id\":1,\"choices\":".toList ++
    [answer] ++ encodeUtf8 ",\"usage\":\x7b\x7d\x7d".toList

def sampleHeader : Header where
  span := ⟨17, 35⟩
  name := ⟨17, 30⟩
  value := ⟨32, 33⟩
  withoutValue := Finset.Ico 17 35 \ Finset.Ico 32 33
  withoutValue_within := Finset.sdiff_subset
  hides_value := Finset.sdiff_disjoint

def sampleRequest : Request where
  span := ⟨0, 76⟩
  line := ⟨0, 17⟩
  target := ⟨5, 6⟩
  headers := [sampleHeader]
  body := some ⟨⟨37, 76⟩, .json (.object [⟨⟨38, 47⟩, ⟨39, 44⟩, by decide⟩,
    ⟨⟨48, 60⟩, ⟨49, 57⟩, by decide⟩, ⟨⟨61, 75⟩, ⟨62, 72⟩, by decide⟩])⟩
  withoutData := Finset.Ico 0 5 ∪ Finset.Ico 6 17 ∪ Finset.Ico 35 37
  withoutData_within := by decide
  hides_headers := List.forall_mem_singleton.mpr (by decide)
  hides_body := by rintro _ ⟨⟩; decide
  target_within := by decide
  hides_target := by decide

def sampleResponse : HttpMessage where
  span := ⟨0, 50⟩
  line := ⟨0, 17⟩
  headers := []
  body := some ⟨⟨19, 50⟩, .json (.object [⟨⟨20, 26⟩, ⟨21, 23⟩, by decide⟩,
    ⟨⟨27, 38⟩, ⟨28, 35⟩, by decide⟩, ⟨⟨39, 49⟩, ⟨40, 45⟩, by decide⟩])⟩
  withoutData := Finset.Ico 0 19
  withoutData_within := by decide
  hides_headers := by simp
  hides_body := by rintro _ ⟨⟩; decide

/-- They agree on what is listed, whatever the white space in front of the key. -/
theorem sample_sent : ∀ tab : Bool, AgreeSent sampleRequest (sampleCall 0x20 0x6B 0x31 0x31).sent
    (sampleCall (if tab then 0x09 else 0x20) 0x71 0x32 0x32).sent := by
  refine fun tab => ⟨?_, ?_, ?_, ?_⟩
  · cases tab <;> decide +kernel
  · refine List.forall_mem_singleton.mpr ?_
    cases tab <;> decide +kernel
  · refine List.forall_mem_singleton.mpr ?_
    cases tab <;> decide +kernel
  · simp only [members, sampleRequest, List.forall_mem_cons]
    refine ⟨?_, ?_, ?_, nofun⟩ <;> cases tab <;> decide +kernel

theorem sample_recv : AgreeRecv sampleResponse (sampleCall 0x20 0x6B 0x31 0x31).received
    (sampleCall 0x20 0x71 0x32 0x32).received := by
  have hfirst : ∀ answer : Bool, ∀ path ∈ paths, ∀ kv ∈ memberAt
      (sampleCall 0x20 0x6B 0x31 (if answer then 0x31 else 0x32)).received
        (members sampleResponse.body) path,
      AgreeOn (sampleCall 0x20 0x6B 0x31 0x31).received
        (sampleCall 0x20 0x71 0x32 0x32).received kv.span.positions := by
    intro answer
    simp only [paths, List.forall_mem_cons]
    refine ⟨?_, ?_, ?_, nofun⟩ <;> cases answer <;> decide +kernel
  exact ⟨by decide +kernel, nofun, fun path hpath kv hkv =>
    hkv.elim (hfirst true path hpath kv) (hfirst false path hpath kv)⟩

/-- With the same white space they agree on the separators too. -/
theorem sample_separators : SameSeparators sampleRequest.toHttpMessage
    (sampleCall 0x20 0x6B 0x31 0x31).sent (sampleCall 0x20 0x71 0x32 0x32).sent := by
  have hout : ∀ i ∈ sampleRequest.span.positions, i ∉ sampleRequest.line.positions →
      i ∉ sampleHeader.span.positions → i ∉ (Span.mk 37 76).positions →
      (sampleCall 0x20 0x6B 0x31 0x31).sent[i]? = (sampleCall 0x20 0x71 0x32 0x32).sent[i]? := by
    decide +kernel
  constructor
  · intro i ⟨hi, hline, hheaders, hbody⟩
    exact hout i hi hline (hheaders _ (List.mem_singleton_self _)) (hbody _ rfl)
  · exact List.forall_mem_singleton.mpr (by decide +kernel)

theorem sample_outside : ∀ i, sampleResponse.Outside i →
    (sampleCall 0x20 0x6B 0x31 0x31).received[i]? =
      (sampleCall 0x20 0x71 0x32 0x32).received[i]? := by
  have hout : ∀ i ∈ sampleResponse.span.positions, i ∉ sampleResponse.line.positions →
      i ∉ (Span.mk 19 50).positions → (sampleCall 0x20 0x6B 0x31 0x31).received[i]? =
        (sampleCall 0x20 0x71 0x32 0x32).received[i]? := by
    decide +kernel
  intro i ⟨hi, hline, _, hbody⟩
  exact hout i hi hline (hbody _ rfl)

/-- Another key, another prompt and another answer. -/
theorem presented_alike_sample :
    PresentedAlike (fun _ => some ⟨[sampleRequest], [sampleResponse]⟩)
      (sampleCall 0x20 0x6B 0x31 0x31) (sampleCall 0x20 0x71 0x32 0x32) :=
  presented_alike rfl rfl rfl rfl (sample_sent false) sample_recv sample_separators
    sample_outside

/-- The white space in front of the key is shown, a tab or a space. -/
theorem white_space_shows : ¬ ∀ (parse : Transcript → Option HttpTranscript)
    (t t' : Transcript) (transcript : HttpTranscript) (request : Request)
    (response : HttpMessage), parse t = some transcript → parse t' = some transcript →
    transcript.requests = [request] → transcript.responses = [response] →
    AgreeSent request t.sent t'.sent → AgreeRecv response t.received t'.received →
    PresentedAlike parse t t' := by
  intro h
  obtain ⟨revealed, hpresent, -, hsent, -⟩ := h
    (fun _ => some ⟨[sampleRequest], [sampleResponse]⟩) (sampleCall 0x20 0x6B 0x31 0x31)
    (sampleCall 0x09 0x71 0x32 0x32) _ _ _ rfl rfl rfl rfl (sample_sent true) sample_recv
  obtain rfl := Option.some.inj hpresent
  have hshown : 31 ∈ allOf (revealSent (sampleCall 0x20 0x6B 0x31 0x31).sent sampleRequest) := by
    decide +kernel
  exact absurd (hsent hshown) (by decide +kernel)

end Bartok.Proof
