import Bartok.Foundation.Outcome
import Bartok.Foundation.Text
import Bartok.Miden.SettleSession

/-!
# The notes the host expects

`build_escrow` writes the seller's and the buyer's P2ID recipients into the
storage of the escrow note and prints their serial numbers. At the end of the
session `settle_session` gets the note and the serial numbers back on its command
line and builds the two output notes a second time, for the note files it hands
out. The note script builds them a third time, from the storage. The three agree.

The Miden crates come in as `MidenCrates`. The calls of the two binaries to the
Guardian and the node are left out, and so are the transaction requests.
-/

namespace Bartok.Miden

open Foundation

/-! ## The crates -/

/-- What the two binaries use of the Miden crates, and what they rely on. -/
structure MidenCrates where
  /-- `NoteRecipient`. -/
  Recipient : Type
  digest : Recipient → Word
  /-- `P2idNoteStorage::new(target).into_recipient(serial)`. -/
  p2idRecipient : AccountId → Word → Recipient
  /-- `NoteTag::with_account_target`. -/
  withAccountTarget : AccountId → UInt32
  /-- `AccountId::from_hex`. -/
  fromHex : Text → Except String AccountId
  /-- The vault key of the fungible asset of a faucet. -/
  fungibleKey : AccountId → Word
  /-- `FungibleAsset::MAX_AMOUNT`. -/
  maxAmount : ℕ
  amountError : ℕ → String
  /-- The base64 of `Note::to_bytes`. -/
  encodeNote : EscrowNote → Text
  /-- `Note::read_from_bytes` of the base64 decoding. -/
  decodeNote : Text → Except String EscrowNote
  decode_encode : ∀ note, decodeNote (encodeNote note) = .ok note
  maxAmount_lt : maxAmount < modulus
  /-- An account id in hex starts with `0x`. -/
  fromHex_prefix : ∀ {s a}, fromHex s = .ok a → s.take 2 = "0x".toList
  /-- Base64 has neither white space nor dashes. -/
  encodeNote_base64 : ∀ note, ∀ c ∈ encodeNote note, c ≠ '-' ∧ Text.isWhitespace c = false

/-- `FungibleAsset`. -/
structure FungibleAsset (maxAmount : ℕ) where
  faucetId : AccountId
  amount : ℕ
  le : amount ≤ maxAmount

/-- The keys of `accounts.json` that the binaries read. -/
structure AccountsJson where
  sellerMultisig : Option Text
  operatorMultisig : Option Text
  operatorTag : Option ℕ
  faucet : Option Text
  guardianGrpc : Option Text

/-! ## The command line -/

/-- The value after the first occurrence of the flag. -/
def findArg (flag : Text) : List Text → Option Text
  | [] => none
  | a :: args => if a = flag then args.head? else findArg flag args

/-- `arg_value`. -/
def argValue (args : List Text) (flag : String) : Except String Text :=
  require (findArg flag.toList args) ("missing " ++ flag ++ " <value>")

/-- `word_strings`. -/
def wordStrings (w : Word) : List Text := List.ofFn fun i => Nat.toDigits 10 (w i).asCanonicalU64

/-- One part of a serial number. -/
def parseSerialPart (part : Text) : Except String Felt := do
  let v ← require (Text.parseU64 (Text.trim part)) "serial parts must be u64"
  require (Felt.new v.toNat) "bad felt"

/-- `parse_serial`. -/
def parseSerial (s : Text) : Except String Word := do
  let felts ← (s.splitOn ',').mapM parseSerialPart
  match felts with
  | [a, b, c, d] => .ok ![a, b, c, d]
  | _ => .error "serial must have 4 comma-separated parts"

/-- The arguments the bridge passes to `build_escrow`, the absolute path of the
binary first. -/
def escrowArgv (path buyer : Text) (budget : ℕ) : List Text :=
  ['/' :: path, "--buyer".toList, buyer, "--budget".toList, Nat.toDigits 10 budget]

/-- The arguments the bridge passes to `settle_session`, the serial numbers joined
with commas. -/
def settleArgv (path noteB64 : Text) (charge : ℕ) (buyer : Text)
    (sellerSerial buyerSerial : List Text) : List Text :=
  ['/' :: path, "--escrow-note-b64".toList, noteB64, "--charge".toList, Nat.toDigits 10 charge,
    "--buyer".toList, buyer, "--seller-serial".toList, [','].intercalate sellerSerial,
    "--buyer-serial".toList, [','].intercalate buyerSerial]

namespace MidenCrates

variable (lib : MidenCrates)

/-- An account of `accounts.json`. -/
def account (hex : Option Text) (missing : String) : Except String AccountId := do
  lib.fromHex (← require hex missing)

/-- `FungibleAsset::new`. -/
def fungibleAsset (faucetId : AccountId) (amount : ℕ) :
    Except String (FungibleAsset lib.maxAmount) :=
  if h : amount ≤ lib.maxAmount then .ok ⟨faucetId, amount, h⟩ else .error (lib.amountError amount)

/-- The asset as the kernel stores it. -/
def asset (a : FungibleAsset lib.maxAmount) : Asset :=
  ⟨lib.fungibleKey a.faucetId, ![⟨a.amount, lt_of_le_of_lt a.le lib.maxAmount_lt⟩, 0, 0, 0]⟩

/-! ## build_escrow -/

/-- The JSON line of `build_escrow`. -/
structure EscrowJson where
  sellerRecipient : List Text
  sellerTag : UInt32
  sellerSerial : List Text
  buyerRecipient : List Text
  buyerTag : UInt32
  buyerSerial : List Text
  noteType : Text
  noteB64 : Text

/-- `main` of `build_escrow`, with the random words it draws. -/
def buildEscrow (accounts : AccountsJson) (args : List Text) (sellerSerial buyerSerial serialNum : Word) :
    Except String EscrowJson := do
  let buyer ← (lib.fromHex (← argValue args "--buyer")).mapError fun _ => "bad buyer id"
  let budget ← require (Text.parseU64 (← argValue args "--budget")) "bad budget"
  let seller ← lib.account accounts.sellerMultisig "sellerMultisig missing"
  let faucet ← lib.account accounts.faucet "faucet missing"
  let operator ← lib.account accounts.operatorMultisig
    "operatorMultisig missing — run setup_multisigs"
  let _ ← require accounts.operatorTag "operatorTag missing"
  if seller = buyer then .error "seller and buyer must differ"
  else
    let sellerRecipient := lib.digest (lib.p2idRecipient seller sellerSerial)
    let buyerRecipient := lib.digest (lib.p2idRecipient buyer buyerSerial)
    let storage := settlementStorage sellerRecipient (lib.withAccountTarget seller) buyerRecipient
      (lib.withAccountTarget buyer) .privateNote operator
    let escrow ← lib.fungibleAsset faucet budget.toNat
    return {
      sellerRecipient := wordStrings sellerRecipient
      sellerTag := lib.withAccountTarget seller
      sellerSerial := wordStrings sellerSerial
      buyerRecipient := wordStrings buyerRecipient
      buyerTag := lib.withAccountTarget buyer
      buyerSerial := wordStrings buyerSerial
      noteType := Nat.toDigits 10 (Felt.ofNoteType .privateNote).asCanonicalU64
      noteB64 := lib.encodeNote ⟨serialNum, storage, escrow.faucetId, escrow.amount, .privateNote⟩ }

/-! ## settle_session -/

/-- An output note as the host builds it. -/
structure HostNote where
  sender : AccountId
  noteType : NoteType
  tag : UInt32
  recipient : lib.Recipient
  asset : FungibleAsset lib.maxAmount

/-- `NoteFile::NoteDetails`. -/
structure NoteDetails where
  asset : FungibleAsset lib.maxAmount
  recipient : lib.Recipient
  afterBlockNum : ℕ
  tag : Option UInt32

/-- The file handed out for an output note. -/
def HostNote.file {lib : MidenCrates} (n : HostNote lib) : NoteDetails lib :=
  ⟨n.asset, n.recipient, 0, some n.tag⟩

/-- What `settle_session` computes of the settlement. -/
structure Settlement where
  refund : ℕ
  /-- `expected_output_recipients` of the request. -/
  expected : List lib.Recipient
  /-- The note argument of the escrow note. -/
  argsWord : Word
  sellerNote : Option (HostNote lib)
  buyerNote : Option (HostNote lib)
  sellerNoteFile : Option (NoteDetails lib)
  refundNoteFile : Option (NoteDetails lib)

/-- `make_note`, and no note for nothing. -/
def makeNote (operator : AccountId) (noteType : NoteType) (faucet target : AccountId)
    (amount : ℕ) (recipient : lib.Recipient) : Except String (Option (HostNote lib)) :=
  if amount > 0 then do
    let asset ← lib.fungibleAsset faucet amount
    return some ⟨operator, noteType, lib.withAccountTarget target, recipient, asset⟩
  else .ok none

/-- `main` of `settle_session`. -/
def settle (accounts : AccountsJson) (args : List Text) : Except String (Settlement lib) := do
  let escrowB64 ← argValue args "--escrow-note-b64"
  let charge ← require (Text.parseU64 (← argValue args "--charge")) "bad charge"
  let buyer ← (lib.fromHex (← argValue args "--buyer")).mapError fun _ => "bad buyer id"
  let sellerSerial ← parseSerial (← argValue args "--seller-serial")
  let buyerSerial ← parseSerial (← argValue args "--buyer-serial")
  let seller ← lib.account accounts.sellerMultisig
    "sellerMultisig missing — run setup_multisigs"
  let operator ← lib.account accounts.operatorMultisig "operatorMultisig missing"
  let faucet ← lib.account accounts.faucet "faucet missing"
  let _ ← require accounts.guardianGrpc "guardianGrpc missing"
  let note ← lib.decodeNote (Text.trim escrowB64)
  let (refund, argsWord) ← settleArgs faucet note charge.toNat
  let sellerRecipient := lib.p2idRecipient seller sellerSerial
  let buyerRecipient := lib.p2idRecipient buyer buyerSerial
  let sellerNote ← lib.makeNote operator note.noteType faucet seller charge.toNat sellerRecipient
  let buyerNote ← lib.makeNote operator note.noteType faucet buyer refund buyerRecipient
  return {
    refund
    expected := (if charge.toNat > 0 then [sellerRecipient] else []) ++
      if refund > 0 then [buyerRecipient] else []
    argsWord
    sellerNote
    buyerNote
    sellerNoteFile := sellerNote.map HostNote.file
    refundNoteFile := buyerNote.map HostNote.file }

/-! ## Reading back the command line -/

section CommandLine

variable {lib : MidenCrates} {flag a s : Text} {args : List Text} {w : Word} {n : ℕ}

theorem findArg_self : findArg flag (flag :: a :: args) = some a := by
  simp [findArg]

theorem findArg_ne (h : a ≠ flag) : findArg flag (a :: args) = findArg flag args := by
  simp [findArg, h]

theorem dash_not_mem_toDigits : '-' ∉ Nat.toDigits 10 n := by
  intro h
  cases Nat.isDigit_of_mem_toDigits (by decide) (by decide) h

/-- Numbers joined with commas have no dash in them. -/
theorem dash_not_mem_serial : '-' ∉ [','].intercalate (wordStrings w) := by
  intro h
  rcases Text.mem_intercalate h with h | ⟨part, hpart, h⟩
  · cases h
  · obtain ⟨i, rfl⟩ := List.mem_ofFn.mp hpart
    exact dash_not_mem_toDigits h

theorem parseSerialPart_toDigits (f : Felt) :
    parseSerialPart (Nat.toDigits 10 f.asCanonicalU64) = .ok f := by
  have htrim : Text.trim (Nat.toDigits 10 f.val) = Nat.toDigits 10 f.val := Text.trim_eq_self
    fun c hc => Text.isWhitespace_of_isDigit
      (Nat.isDigit_of_mem_toDigits (by decide) (by decide) hc)
  have hlt : f.val < UInt64.size := lt_trans f.isLt (by decide)
  simp only [parseSerialPart, htrim, Text.parseU64_toDigits, if_pos hlt, bind_eq_ok, require_eq_ok]
  exact ⟨_, rfl, by rw [UInt64.toNat_ofNat_of_lt' hlt, Felt.new_of_lt f.isLt]⟩

/-- **A serial number survives the way through the bridge.** -/
theorem parseSerial_wordStrings : parseSerial ([','].intercalate (wordStrings w)) = .ok w := by
  have hsplit : ([','].intercalate (wordStrings w)).splitOn ',' = wordStrings w := by
    refine List.splitOn_intercalate ',' (fun part hpart hcomma => ?_) (by simp [wordStrings])
    obtain ⟨i, rfl⟩ := List.mem_ofFn.mp hpart
    cases Nat.isDigit_of_mem_toDigits (by decide) (by decide) hcomma
  have hparts : (wordStrings w).mapM parseSerialPart = .ok [w 0, w 1, w 2, w 3] := by
    show [Nat.toDigits 10 (w 0).val, Nat.toDigits 10 (w 1).val, Nat.toDigits 10 (w 2).val,
      Nat.toDigits 10 (w 3).val].mapM parseSerialPart = _
    simp [parseSerialPart_toDigits, pure, Except.pure, bind, Except.bind]
  rw [parseSerial, hsplit, hparts]
  exact congrArg Except.ok (word_eta w)

theorem argValue_eq_ok {flag : String} {v : Text} :
    argValue args flag = .ok v ↔ findArg flag.toList args = some v := require_eq_ok

/-- An account id in hex is no flag. -/
theorem hex_ne_flag {hex : Text} (hhex : hex.take 2 = "0x".toList) (hflag : flag.head? = some '-') :
    hex ≠ flag := by
  rintro rfl
  cases hex with
  | nil => cases hflag
  | cons c hex =>
      obtain rfl := Option.some.inj hflag
      simp at hhex

theorem ne_flag {s : Text} (hs : '-' ∉ s) (hflag : flag.head? = some '-') : s ≠ flag := by
  rintro rfl
  exact hs (List.mem_of_mem_head? hflag)

theorem argValue_buyer {path hex : Text} {budget : ℕ} :
    argValue (escrowArgv path hex budget) "--buyer" = .ok hex := by
  rw [argValue_eq_ok, escrowArgv, findArg_ne (by simp), findArg_self]

theorem argValue_budget {path hex : Text} {budget : ℕ} (hhex : hex.take 2 = "0x".toList) :
    argValue (escrowArgv path hex budget) "--budget" = .ok (Nat.toDigits 10 budget) := by
  rw [argValue_eq_ok, escrowArgv, findArg_ne (by simp), findArg_ne (by simp),
    findArg_ne (hex_ne_flag hhex rfl), findArg_self]

/-- `settle_session` finds its five arguments. -/
theorem argValue_settle (path : Text) {note hex : Text} (charge : ℕ) (ss bs : Word)
    (hnote : '-' ∉ note)
    (hhex : hex.take 2 = "0x".toList) :
    let args := settleArgv path note charge hex (wordStrings ss) (wordStrings bs)
    argValue args "--escrow-note-b64" = .ok note ∧
      argValue args "--charge" = .ok (Nat.toDigits 10 charge) ∧
      argValue args "--buyer" = .ok hex ∧
      argValue args "--seller-serial" = .ok ([','].intercalate (wordStrings ss)) ∧
      argValue args "--buyer-serial" = .ok ([','].intercalate (wordStrings bs)) := by
  simp only [argValue_eq_ok, settleArgv]
  refine ⟨?_, ?_, ?_, ?_, ?_⟩
  · rw [findArg_ne (by simp), findArg_self]
  · rw [findArg_ne (by simp), findArg_ne (by simp), findArg_ne (ne_flag hnote rfl), findArg_self]
  · rw [findArg_ne (by simp), findArg_ne (by simp), findArg_ne (ne_flag hnote rfl),
      findArg_ne (by simp), findArg_ne (ne_flag dash_not_mem_toDigits rfl), findArg_self]
  · rw [findArg_ne (by simp), findArg_ne (by simp), findArg_ne (ne_flag hnote rfl),
      findArg_ne (by simp), findArg_ne (ne_flag dash_not_mem_toDigits rfl), findArg_ne (by simp),
      findArg_ne (hex_ne_flag hhex rfl), findArg_self]
  · rw [findArg_ne (by simp), findArg_ne (by simp), findArg_ne (ne_flag hnote rfl),
      findArg_ne (by simp), findArg_ne (ne_flag dash_not_mem_toDigits rfl), findArg_ne (by simp),
      findArg_ne (hex_ne_flag hhex rfl), findArg_ne (by simp),
      findArg_ne (ne_flag dash_not_mem_serial rfl), findArg_self]

end CommandLine

/-! ## Agreement -/

/-- The note script of an escrow note, on the storage and the asset of the note:
an account consumes it with a note argument. -/
def consume (note : EscrowNote) (account : AccountId) (arg : Word) :
    Except String (List OutputNote) := do
  let value ← require note.value "the amount is no field element"
  let self ← require (BartokSettlement.decode note.storage) "the storage does not decode"
  self.run account [⟨lib.fungibleKey note.faucet, value⟩] arg

section Agreement

variable {lib : MidenCrates} {accounts : AccountsJson} {path path' hex : Text} {budget charge : ℕ}
  {sellerSerial buyerSerial serialNum : Word} {json : EscrowJson}

/-- The output note is the one the host has built. The kernel makes the executing
account the sender of a note. -/
def HostNote.Emitted (n : HostNote lib) (account : AccountId) (out : OutputNote) : Prop :=
  n.sender = account ∧ out = ⟨Felt.ofNoteTag n.tag, Felt.ofNoteType n.noteType,
    lib.digest n.recipient, [lib.asset n.asset]⟩

/-- The file is of the output note: the same recipient and assets, so the same id,
and the same tag. -/
def NoteDetails.Describes (file : NoteDetails lib) (out : OutputNote) : Prop :=
  lib.digest file.recipient = out.recipient ∧ [lib.asset file.asset] = out.assets ∧
    file.tag.map Felt.ofNoteTag = some out.tag

/-- The host and the note script agree on the outputs, one by one. -/
structure Settlement.Agrees (s : Settlement lib) (account : AccountId) (outs : List OutputNote) :
    Prop where
  expected : s.expected.map lib.digest = outs.map OutputNote.recipient
  notes : List.Forall₂ (HostNote.Emitted · account) (s.sellerNote.toList ++ s.buyerNote.toList) outs
  files : List.Forall₂ NoteDetails.Describes
    (s.sellerNoteFile.toList ++ s.refundNoteFile.toList) outs

theorem account_eq_ok {o : Option Text} {missing : String} {a : AccountId} :
    lib.account o missing = .ok a ↔ ∃ s, o = some s ∧ lib.fromHex s = .ok a := by
  simp [account]

theorem fungibleAsset_eq_ok {faucet : AccountId} {amount : ℕ} {a : FungibleAsset lib.maxAmount} :
    lib.fungibleAsset faucet amount = .ok a ↔
      ∃ h : amount ≤ lib.maxAmount, a = ⟨faucet, amount, h⟩ := by
  unfold fungibleAsset
  split
  · next h => simp [h, eq_comm]
  · next h => simp [h]

/-- The three accounts of `accounts.json`. -/
structure Roles (lib : MidenCrates) (accounts : AccountsJson) (seller faucet operator : AccountId) :
    Prop where
  seller : ∃ s, accounts.sellerMultisig = some s ∧ lib.fromHex s = .ok seller
  faucet : ∃ s, accounts.faucet = some s ∧ lib.fromHex s = .ok faucet
  operator : ∃ s, accounts.operatorMultisig = some s ∧ lib.fromHex s = .ok operator

/-- The escrow note of a session. -/
def escrowNote (lib : MidenCrates) (seller buyer faucet operator : AccountId)
    (sellerSerial buyerSerial serialNum : Word) (budget : ℕ) : EscrowNote :=
  ⟨serialNum, settlementStorage (lib.digest (lib.p2idRecipient seller sellerSerial))
    (lib.withAccountTarget seller) (lib.digest (lib.p2idRecipient buyer buyerSerial))
    (lib.withAccountTarget buyer) .privateNote operator, faucet, budget, .privateNote⟩

theorem buildEscrow_ok
    (h : lib.buildEscrow accounts (escrowArgv path hex budget) sellerSerial buyerSerial serialNum =
      .ok json) :
    ∃ seller buyer faucet operator, Roles lib accounts seller faucet operator ∧
      lib.fromHex hex = .ok buyer ∧ budget ≤ lib.maxAmount ∧
      json.sellerSerial = wordStrings sellerSerial ∧ json.buyerSerial = wordStrings buyerSerial ∧
      json.noteB64 = lib.encodeNote
        (escrowNote lib seller buyer faucet operator sellerSerial buyerSerial serialNum budget) := by
  simp only [buildEscrow, bind_eq_ok, mapError_eq_ok, require_eq_ok, account_eq_ok,
    argValue_buyer, Except.ok.injEq, exists_eq_left', ite_error_eq_ok, fungibleAsset_eq_ok] at h
  obtain ⟨buyer, hbuyer, arg, harg, b, hb, seller, hseller, faucet, hfaucet, operator, hoperator, -, -,
    -, -, ⟨hle, rfl⟩, hjson⟩ := h
  rw [argValue_budget (lib.fromHex_prefix hbuyer), Except.ok.injEq] at harg
  subst harg
  rw [Text.parseU64_toDigits, Option.ite_none_right_eq_some, Option.some.injEq] at hb
  obtain ⟨hlt, rfl⟩ := hb
  rw [UInt64.toNat_ofNat_of_lt' hlt] at hle
  obtain rfl := Except.ok.inj hjson
  refine ⟨seller, buyer, faucet, operator, ⟨hseller, hfaucet, hoperator⟩, hbuyer, hle, rfl, rfl, ?_⟩
  simp only [UInt64.toNat_ofNat_of_lt' hlt, escrowNote]

/-- `build_escrow` builds every escrow that is not too large, for a buyer other than the seller. -/
theorem buildEscrow_builds {seller buyer faucet operator : AccountId}
    (hroles : Roles lib accounts seller faucet operator)
    (htag : accounts.operatorTag.isSome = true) (hbuyer : lib.fromHex hex = .ok buyer)
    (hne : seller ≠ buyer) (hmax : budget ≤ lib.maxAmount) (hsize : budget < UInt64.size) :
    ∃ json, lib.buildEscrow accounts (escrowArgv path hex budget) sellerSerial buyerSerial
        serialNum = .ok json ∧
      json.noteB64 = lib.encodeNote
        (escrowNote lib seller buyer faucet operator sellerSerial buyerSerial serialNum budget) := by
  obtain ⟨⟨_, hseller, hseller'⟩, ⟨_, hfaucet, hfaucet'⟩, ⟨_, hoperator, hoperator'⟩⟩ := hroles
  obtain ⟨tag, htag⟩ := Option.isSome_iff_exists.mp htag
  have hbuyerArg : argValue (escrowArgv path hex budget) "--buyer" = .ok hex := argValue_buyer
  have hbudgetArg : argValue (escrowArgv path hex budget) "--budget" =
      .ok (Nat.toDigits 10 budget) := argValue_budget (lib.fromHex_prefix hbuyer)
  have hparse : Text.parseU64 (Nat.toDigits 10 budget) = some (UInt64.ofNat budget) := by
    rw [Text.parseU64_toDigits, if_pos hsize]
  have hasset : lib.fungibleAsset faucet budget = .ok ⟨faucet, budget, hmax⟩ := dif_pos hmax
  simp [buildEscrow, hbuyerArg, hbudgetArg, hparse, hbuyer, account, hseller, hseller', hoperator,
    hoperator', hfaucet, hfaucet', htag, hne, require, UInt64.toNat_ofNat_of_lt' hsize, hasset,
    Except.mapError, bind, Except.bind, pure, Except.pure, escrowNote]

/-- What `settle_session` computes from the arguments of the bridge. -/
theorem settle_eq (path : Text) {seller buyer faucet operator : AccountId} {note : EscrowNote}
    {refund : ℕ}
    {arg : Word} {sellerNote buyerNote : Option (HostNote lib)}
    (hroles : Roles lib accounts seller faucet operator)
    (hgrpc : accounts.guardianGrpc.isSome = true) (hbuyer : lib.fromHex hex = .ok buyer)
    (hsize : charge < UInt64.size) (hargs : settleArgs faucet note charge = .ok (refund, arg))
    (hsellerNote : lib.makeNote operator note.noteType faucet seller charge
      (lib.p2idRecipient seller sellerSerial) = .ok sellerNote)
    (hbuyerNote : lib.makeNote operator note.noteType faucet buyer refund
      (lib.p2idRecipient buyer buyerSerial) = .ok buyerNote) :
    lib.settle accounts (settleArgv path (lib.encodeNote note) charge hex (wordStrings sellerSerial)
      (wordStrings buyerSerial)) = .ok
        { refund
          expected := (if charge > 0 then [lib.p2idRecipient seller sellerSerial] else []) ++
            if refund > 0 then [lib.p2idRecipient buyer buyerSerial] else []
          argsWord := arg
          sellerNote
          buyerNote
          sellerNoteFile := sellerNote.map HostNote.file
          refundNoteFile := buyerNote.map HostNote.file } := by
  obtain ⟨⟨_, hseller, hseller'⟩, ⟨_, hfaucet, hfaucet'⟩, ⟨_, hoperator, hoperator'⟩⟩ := hroles
  obtain ⟨grpc, hgrpc⟩ := Option.isSome_iff_exists.mp hgrpc
  have hbase := lib.encodeNote_base64 note
  obtain ⟨hnoteArg, hchargeArg, hbuyerArg, hssArg, hbsArg⟩ :=
    argValue_settle path charge sellerSerial buyerSerial (fun h => (hbase _ h).1 rfl)
      (lib.fromHex_prefix hbuyer)
  have hdecode : lib.decodeNote (Text.trim (lib.encodeNote note)) = .ok note := by
    rw [Text.trim_eq_self fun c hc => (hbase c hc).2, lib.decode_encode]
  have hparse : Text.parseU64 (Nat.toDigits 10 charge) = some (UInt64.ofNat charge) := by
    rw [Text.parseU64_toDigits, if_pos hsize]
  simp [settle, hnoteArg, hchargeArg, hbuyerArg, hssArg, hbsArg, hparse, require, hbuyer,
    parseSerial_wordStrings, account, hseller, hseller', hoperator, hoperator', hfaucet, hfaucet',
    hgrpc, hdecode, UInt64.toNat_ofNat_of_lt' hsize, hargs, hsellerNote, hbuyerNote, Except.mapError,
    bind, Except.bind, pure, Except.pure]

/-- A host note, its file and its recipient are those of the note the script pays
with. -/
theorem makeNote_spec (operator : AccountId) (noteType : NoteType) (faucet target : AccountId)
    (recipient : lib.Recipient) (budget : Felt) {amount : ℕ} (hle : amount ≤ lib.maxAmount)
    (hlt : amount < modulus) :
    let outs := p2idNotes (lib.digest recipient) (lib.withAccountTarget target) noteType
      ⟨lib.fungibleKey faucet, ![budget, 0, 0, 0]⟩ ⟨amount, hlt⟩
    ∃ n, lib.makeNote operator noteType faucet target amount recipient = .ok n ∧
      (if amount > 0 then [recipient] else []).map lib.digest = outs.map OutputNote.recipient ∧
      List.Forall₂ (HostNote.Emitted · operator) n.toList outs ∧
      List.Forall₂ NoteDetails.Describes (n.map HostNote.file).toList outs := by
  by_cases hpos : amount > 0
  · have hne : (⟨amount, hlt⟩ : Felt) ≠ 0 := fun h => by
      have := congrArg Fin.val h
      simp at this
      omega
    refine ⟨some ⟨operator, noteType, lib.withAccountTarget target, recipient,
      ⟨faucet, amount, hle⟩⟩, ?_, ?_, ?_, ?_⟩
    · simp [makeNote, hpos, fungibleAsset, hle, bind, Except.bind, pure, Except.pure]
    · simp [p2idNotes, hpos, hne]
    · rw [p2idNotes, if_neg hne]
      exact .cons ⟨rfl, rfl⟩ .nil
    · rw [p2idNotes, if_neg hne]
      exact .cons ⟨rfl, rfl, rfl⟩ .nil
  · obtain rfl : amount = 0 := by omega
    exact ⟨none, rfl, rfl, .nil, .nil⟩

/-- What the note script makes of the escrow note. -/
theorem consume_eq (lib : MidenCrates) (seller buyer faucet operator : AccountId)
    (sellerSerial buyerSerial serialNum : Word) (hcharge : charge ≤ budget)
    (hlt : budget < modulus) :
    let asset : Asset := ⟨lib.fungibleKey faucet, ![⟨budget, hlt⟩, 0, 0, 0]⟩
    lib.consume (escrowNote lib seller buyer faucet operator sellerSerial buyerSerial serialNum budget)
        operator ![⟨charge, lt_of_le_of_lt hcharge hlt⟩, 0, 0, 0] =
      .ok (p2idNotes (lib.digest (lib.p2idRecipient seller sellerSerial))
          (lib.withAccountTarget seller) .privateNote asset ⟨charge, lt_of_le_of_lt hcharge hlt⟩ ++
        p2idNotes (lib.digest (lib.p2idRecipient buyer buyerSerial)) (lib.withAccountTarget buyer)
          .privateNote asset ⟨budget - charge, lt_of_le_of_lt (Nat.sub_le _ _) hlt⟩) := by
  intro asset
  have hrun := runEncoded_eq (lib.digest (lib.p2idRecipient seller sellerSerial))
    (lib.withAccountTarget seller) (lib.digest (lib.p2idRecipient buyer buyerSerial))
    (lib.withAccountTarget buyer) .privateNote operator operator asset
    ![⟨charge, lt_of_le_of_lt hcharge hlt⟩, 0, 0, 0]
  -- the script's refund is a subtraction of field elements
  have hrefund : asset.value 0 - ⟨charge, lt_of_le_of_lt hcharge hlt⟩ =
      ⟨budget - charge, lt_of_le_of_lt (Nat.sub_le _ _) hlt⟩ :=
    Fin.ext (Fin.sub_val_of_le hcharge)
  rw [if_neg (fun h => h rfl), if_neg (fun h => h hcharge)] at hrun
  simp only [Matrix.cons_val_zero, hrefund] at hrun
  simp only [consume, EscrowNote.value, escrowNote, Felt.new_of_lt hlt, Option.map_some, require]
  exact hrun

/-- **The host and the note script agree on the outputs.** For every escrow note
`build_escrow` has built and every charge it covers: the arguments the bridge passes
make `settle_session` compute the notes that the script emits when the operator
consumes the escrow with that note argument. -/
theorem host_agrees_with_script
    (hbuild : lib.buildEscrow accounts (escrowArgv path hex budget) sellerSerial buyerSerial
      serialNum = .ok json)
    (hgrpc : accounts.guardianGrpc.isSome = true) (hcharge : charge ≤ budget) :
    ∃ note operator s outs, lib.decodeNote json.noteB64 = .ok note ∧
      (∃ o, accounts.operatorMultisig = some o ∧ lib.fromHex o = .ok operator) ∧
      lib.settle accounts (settleArgv path' json.noteB64 charge hex json.sellerSerial
        json.buyerSerial) = .ok s ∧
      lib.consume note operator s.argsWord = .ok outs ∧ s.Agrees operator outs := by
  obtain ⟨seller, buyer, faucet, operator, hroles, hbuyer, hmax, hss, hbs, hnote⟩ :=
    buildEscrow_ok hbuild
  have hlt : budget < modulus := lt_of_le_of_lt hmax lib.maxAmount_lt
  have hchargeLt : charge < modulus := lt_of_le_of_lt hcharge hlt
  have hrefundLt : budget - charge < modulus := lt_of_le_of_lt (Nat.sub_le _ _) hlt
  obtain ⟨sellerNote, hsellerNote, hsellerExpected, hsellerEmitted, hsellerFile⟩ :=
    makeNote_spec operator .privateNote faucet seller (lib.p2idRecipient seller sellerSerial)
      ⟨budget, hlt⟩ (hcharge.trans hmax) hchargeLt
  obtain ⟨buyerNote, hbuyerNote, hbuyerExpected, hbuyerEmitted, hbuyerFile⟩ :=
    makeNote_spec operator .privateNote faucet buyer (lib.p2idRecipient buyer buyerSerial)
      ⟨budget, hlt⟩ ((Nat.sub_le _ _).trans hmax) hrefundLt
  set note := escrowNote lib seller buyer faucet operator sellerSerial buyerSerial serialNum budget
  have hargs : settleArgs faucet note charge =
      .ok (budget - charge, ![⟨charge, hchargeLt⟩, 0, 0, 0]) := by
    simp [settleArgs, EscrowNote.budget, note, escrowNote, Nat.not_lt_of_le hcharge,
      Felt.new_of_lt hchargeLt]
  have hsettle := settle_eq path' hroles hgrpc hbuyer
    (lt_trans hchargeLt (by decide)) hargs hsellerNote hbuyerNote
  have hconsume :=
    consume_eq lib seller buyer faucet operator sellerSerial buyerSerial serialNum hcharge hlt
  rw [← hss, ← hbs, ← hnote] at hsettle
  refine ⟨note, operator, _, _, by rw [hnote, lib.decode_encode], hroles.operator, hsettle, hconsume,
    ?_, ?_, ?_⟩
  · rw [List.map_append, List.map_append, hsellerExpected, hbuyerExpected]
  · exact List.rel_append hsellerEmitted hbuyerEmitted
  · exact List.rel_append hsellerFile hbuyerFile

end Agreement

/-! An escrow of 50000 is settled for 42, with crates that write numbers in decimal
and take a recipient for its own digest. -/

def noteNats (note : EscrowNote) : List ℕ :=
  (List.ofFn note.serialNum).map Fin.val ++ [note.faucet.prefixFelt.val, note.faucet.suffixFelt.val,
    note.amount, (Felt.ofNoteType note.noteType).val] ++ note.storage.map Fin.val

def ofNoteNats : List ℕ → Option EscrowNote
  | s0 :: s1 :: s2 :: s3 :: p :: q :: amount :: noteType :: storage =>
      some ⟨![Fin.ofNat _ s0, Fin.ofNat _ s1, Fin.ofNat _ s2, Fin.ofNat _ s3],
        storage.map (Fin.ofNat modulus), ⟨Fin.ofNat _ p, Fin.ofNat _ q⟩, amount,
        if noteType = 0 then .privateNote else .publicNote⟩
  | _ => none

theorem ofNoteNats_noteNats (note : EscrowNote) : ofNoteNats (noteNats note) = some note := by
  obtain ⟨serialNum, storage, ⟨p, q⟩, amount, noteType⟩ := note
  have htype : (if Felt.ofNoteType noteType = 0 then NoteType.privateNote else .publicNote) =
      noteType := by
    cases noteType <;> rfl
  simp [noteNats, ofNoteNats, htype, word_eta, Function.comp_def]

def demoDecode (s : Text) : Except String EscrowNote :=
  require (ofNoteNats ((s.splitOn '+').map fun part => Nat.ofDigitChars 10 part 0)) "bad note"

def demoEncode (note : EscrowNote) : Text := ['+'].intercalate ((noteNats note).map (Nat.toDigits 10))

theorem demoDecode_demoEncode (note : EscrowNote) : demoDecode (demoEncode note) = .ok note := by
  have hsplit : (demoEncode note).splitOn '+' = (noteNats note).map (Nat.toDigits 10) := by
    refine List.splitOn_intercalate '+' (fun part hpart hplus => ?_) (by simp [noteNats])
    obtain ⟨n, -, rfl⟩ := List.mem_map.mp hpart
    cases Nat.isDigit_of_mem_toDigits (by decide) (by decide) hplus
  rw [demoDecode, require_eq_ok, hsplit, List.map_map]
  simp [Function.comp_def, ofNoteNats_noteNats]

def hexNumber (s : Text) : Option ℕ :=
  (s.mapM Text.hexValue).map fun digits => digits.foldl (fun n d => 16 * n + d) 0

/-- An id is fifteen bytes in hex: eight of the prefix and seven of the suffix, which ends with
a zero byte. The last byte of the prefix has the version 0 in its lower half and one of three
storage modes in its two upper bits, and the highest bit of the suffix is zero. -/
def demoFromHex (s : Text) : Except String AccountId :=
  if s.take 2 = "0x".toList ∧ s.length = 32 then
    match hexNumber ((s.drop 2).take 16), hexNumber (s.drop 18) with
    | some p, some q =>
        if p < modulus ∧ p % 16 = 0 ∧ p / 64 % 4 ≠ 3 ∧ q < 2 ^ 55 then
          .ok ⟨Fin.ofNat _ p, Fin.ofNat _ (256 * q)⟩
        else .error "failed to parse account id"
    | _, _ => .error "failed to decode hex"
  else .error "hex string must have 0x and 30 digits"

theorem demoEncode_base64 (note : EscrowNote) :
    ∀ c ∈ demoEncode note, c ≠ '-' ∧ Text.isWhitespace c = false := by
  intro c hc
  rcases Text.mem_intercalate hc with rfl | ⟨part, hpart, hc⟩
  · decide
  · obtain ⟨n, -, rfl⟩ := List.mem_map.mp hpart
    refine ⟨fun h => dash_not_mem_toDigits (h ▸ hc), Text.isWhitespace_of_isDigit ?_⟩
    exact Nat.isDigit_of_mem_toDigits (by decide) (by decide) hc

def demoCrates : MidenCrates where
  Recipient := Word
  digest := id
  p2idRecipient target serial i :=
    if i.val < 2 then serial i else if i.val = 2 then target.prefixFelt else target.suffixFelt
  withAccountTarget target := UInt32.ofNat target.prefixFelt.val
  fromHex := demoFromHex
  fungibleKey faucet := ![faucet.prefixFelt, faucet.suffixFelt, 0, 0]
  maxAmount := 2 ^ 63 - 2 ^ 31
  amountError amount := "asset amount " ++ toString amount ++ " exceeds the maximum"
  encodeNote := demoEncode
  decodeNote := demoDecode
  decode_encode := demoDecode_demoEncode
  maxAmount_lt := by decide
  fromHex_prefix {s a} h := by
    unfold demoFromHex at h
    split at h
    · next hhead => exact hhead.1
    · cases h
  encodeNote_base64 := demoEncode_base64

def demoAccounts : AccountsJson :=
  ⟨some "0x5e11e75e11e75e905e11e75e11e75e".toList, some "0x09e7a70709e7a79009e7a70709e7a7".toList,
    some 0, some "0xfa0ce7fa0ce7fa200ace70face70fa".toList, some "http://guardian".toList⟩

def demoSeller : AccountId := ⟨0x5e11e75e11e75e90, 0x5e11e75e11e75e00⟩

def demoOperator : AccountId := ⟨0x09e7a70709e7a790, 0x09e7a70709e7a700⟩

def demoFaucet : AccountId := ⟨0xfa0ce7fa0ce7fa20, 0x0ace70face70fa00⟩

theorem demoAccounts_roles : Roles demoCrates demoAccounts demoSeller demoFaucet demoOperator :=
  ⟨⟨_, rfl, by decide +kernel⟩, ⟨_, rfl, by decide +kernel⟩, ⟨_, rfl, by decide +kernel⟩⟩

/-- The account of a buyer. -/
def demoBuyer : String := "0x0b0b0b0b0b0b0b900b0b0b0b0b0b0b"

def demoBuyerId : AccountId := ⟨0x0b0b0b0b0b0b0b90, 0x0b0b0b0b0b0b0b00⟩

theorem demoBuyer_fromHex : demoCrates.fromHex demoBuyer.toList = .ok demoBuyerId := by
  decide +kernel

theorem demo_builds (path : Text) (serialNum : Word) : ∃ json,
    demoCrates.buildEscrow demoAccounts (escrowArgv path demoBuyer.toList 50000) (fun _ => 1)
        (fun _ => 2) serialNum = .ok json ∧
      json.noteB64 = demoCrates.encodeNote (escrowNote demoCrates demoSeller demoBuyerId demoFaucet
        demoOperator (fun _ => 1) (fun _ => 2) serialNum 50000) :=
  buildEscrow_builds demoAccounts_roles rfl demoBuyer_fromHex (by decide) (by decide) (by decide)

example : demoFromHex "0xb0b".toList = .error "hex string must have 0x and 30 digits" := rfl

theorem host_agrees_with_script_demo : ∃ json note operator s outs,
    demoCrates.buildEscrow demoAccounts (escrowArgv "bin/build_escrow".toList demoBuyer.toList 50000)
      (fun _ => 1) (fun _ => 2) (fun _ => 3) = .ok json ∧
    demoCrates.settle demoAccounts (settleArgv "bin/settle_session".toList json.noteB64 42
      demoBuyer.toList json.sellerSerial json.buyerSerial) = .ok s ∧
    demoCrates.consume note operator s.argsWord = .ok outs ∧ s.Agrees operator outs :=
  have ⟨_, hbuild, _⟩ := demo_builds "bin/build_escrow".toList fun _ => 3
  have ⟨note, operator, s, outs, _, _, hsettle, hconsume, hagrees⟩ :=
    host_agrees_with_script hbuild rfl (show 42 ≤ 50000 by decide)
  ⟨_, note, operator, s, outs, hbuild, hsettle, hconsume, hagrees⟩

end MidenCrates

end Bartok.Miden
