import Bartok.Foundation.JsonCompact
import Bartok.Foundation.JsonValue
import Bartok.Miden.HostNotes

/-!
# Serial numbers on their way through the bridge

`build_escrow` prints a serial number as an array of four decimal numbers. The bridge
parses the array, joins it with commas, and passes the text to `settle_session`, which
reads it back. Nothing is lost on the way, over the whole range of the field, and only four
numbers of the field are read as a word.
-/

namespace Bartok.Miden

open Foundation

variable {w w' : Word} {s part : Text} {f : Felt} {v : ℕ}

/-! ## What the reader accepts -/

theorem Felt.new_eq_some : Felt.new v = some f ↔ v < modulus ∧ f.asCanonicalU64 = v := by
  unfold Felt.new
  constructor
  · intro h
    split at h
    · next hlt =>
        obtain rfl := Option.some.inj h
        exact ⟨hlt, rfl⟩
    · cases h
  · rintro ⟨hlt, rfl⟩
    rw [dif_pos hlt]

theorem parseSerialPart_eq_ok : parseSerialPart part = .ok f ↔
    ∃ v, Text.parseU64 (Text.trim part) = some v ∧ v.toNat < modulus ∧
      f.asCanonicalU64 = v.toNat := by
  simp only [parseSerialPart, bind_eq_ok, require_eq_ok, Felt.new_eq_some]

theorem forall₂_ofFn {α β : Type*} {R : α → β → Prop} {n : ℕ} {xs : List α} {g : Fin n → β} :
    List.Forall₂ R xs (List.ofFn g) ↔ ∃ f, xs = List.ofFn f ∧ ∀ i, R (f i) (g i) := by
  constructor
  · intro h
    obtain rfl : xs.length = n := by simpa using h.length_eq
    refine ⟨xs.get, (List.ofFn_get xs).symm, fun i => ?_⟩
    simpa using h.get i.isLt (by simp)
  · rintro ⟨f, rfl, h⟩
    apply List.forall₂_of_length_eq_of_get (by simp)
    intro i hi hi'
    simpa using h ⟨i, by simpa using hi⟩

/-- Four parts between commas, which are the elements of the word in decimal. -/
def ReadsAs (s : Text) (w : Word) : Prop :=
  ∃ parts : Fin 4 → Text, s.splitOn ',' = List.ofFn parts ∧
    ∀ i, ∃ v, Text.parseU64 (Text.trim (parts i)) = some v ∧ v.toNat < modulus ∧
      (w i).asCanonicalU64 = v.toNat

theorem parseSerial_eq_ok : parseSerial s = .ok w ↔ ReadsAs s w := by
  have hword : parseSerial s = .ok w ↔
      (s.splitOn ',').mapM parseSerialPart = .ok (List.ofFn w) := by
    rw [parseSerial, bind_eq_ok]
    constructor
    · rintro ⟨felts, hfelts, h⟩
      split at h
      · obtain rfl := Except.ok.inj h
        exact hfelts
      · cases h
    · exact fun h => ⟨_, h, congrArg Except.ok (word_eta w)⟩
  simp only [hword, mapM_eq_ok, forall₂_ofFn, parseSerialPart_eq_ok, ReadsAs]

/-! ## What the bridge makes of it -/

/-- The argument for `settle_session`. -/
def joined (w : Word) : Text := [','].intercalate (wordStrings w)

/-- The array that `build_escrow` prints. -/
def serialJson (w : Word) : Json :=
  .arr ((wordStrings w).map fun digits => .str (utf16 (String.ofList digits)))

/-- The parsed array joined with commas, as `String` joins the elements of any array. -/
def serialArg (numText : NumLit → Utf16) (depth : ℕ) (printed : Text) : Option Utf16 :=
  (Json.parse printed).bind (Json.toText numText (depth + 1))

theorem utf16_intercalate (parts : List Text) :
    List.intercalate (utf16 ",") (parts.map fun part => utf16 (String.ofList part)) =
      utf16 (String.ofList ([','].intercalate parts)) := by
  induction parts with
  | nil => rfl
  | cons part parts ih =>
      by_cases hparts : parts = []
      · subst hparts
        rw [List.map_singleton, List.intercalate_singleton, List.intercalate_singleton]
      · rw [List.map_cons, List.intercalate_cons_of_ne_nil (by simpa using hparts), ih,
          List.intercalate_cons_of_ne_nil hparts]
        simp [utf16]

theorem serialArg_serialJson (numText : NumLit → Utf16) (depth : ℕ) :
    serialArg numText depth (Json.stringify (serialJson w)) =
      some (utf16 (String.ofList (joined w))) := by
  have hstrs : serialJson w =
      .arr (((wordStrings w).map fun digits => utf16 (String.ofList digits)).map .str) := by
    rw [serialJson, List.map_map]
    rfl
  rw [serialArg, Json.stringify, Json.parse_print, Option.bind_some, hstrs, Json.toText_strings,
    utf16_intercalate, joined]

/-- **Serial words round-trip through the bridge.** The text that the bridge makes of a
printed word is read back as this word; a text is read as a word exactly if it has four
parts that are the elements of the word; and different words have different texts. -/
theorem serial_round_trip :
    (∀ (w : Word) numText depth, serialArg numText depth (Json.stringify (serialJson w)) =
        some (utf16 (String.ofList (joined w))) ∧ parseSerial (joined w) = .ok w) ∧
      (∀ s w, parseSerial s = .ok w ↔ ReadsAs s w) ∧
      ∀ w w', parseSerial (joined w) = parseSerial (joined w') ↔ w = w' := by
  refine ⟨fun w numText depth => ⟨serialArg_serialJson numText depth, MidenCrates.parseSerial_wordStrings⟩,
    fun s w => parseSerial_eq_ok, fun w w' => ⟨fun h => ?_, fun h => h ▸ rfl⟩⟩
  rw [joined, joined, MidenCrates.parseSerial_wordStrings,
    MidenCrates.parseSerial_wordStrings] at h
  exact Except.ok.inj h

end Bartok.Miden
