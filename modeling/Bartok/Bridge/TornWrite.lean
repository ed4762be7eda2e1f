import Bartok.Foundation.JsonValue

/-!
# A store file cut short

The three stores are rewritten in place: `fs.writeFileSync` truncates the file and
then writes the new text. A process killed in between leaves a proper prefix of that
text, which is not JSON, and each of the three loads answers the empty store for what
is not JSON. The next save then writes that down.

The files are bytes here; what is one `none` of `Disk` is every such file.
-/

namespace Bartok.Bridge

open Foundation Text Json

/-- The members of an object, in order. -/
abbrev Members := List (Utf16 × Json)

inductive Store
  | sessions
  | users
  | refunds
deriving DecidableEq

/-! ## Saves and loads -/

/-- `saveUsers` indents its text, the other two do not. -/
def Store.layout : Store → Layout
  | .users => indented
  | .sessions | .refunds => compact

/-- The bytes of a save. -/
def Store.encode (store : Store) (content : Members) : List UInt8 :=
  encodeUtf8 (print store.layout 0 (.obj content))

/-- `JSON.parse(fs.readFileSync(file, 'utf8'))`; `none` when it throws. -/
def parseFile (file : List UInt8) : Option Json := parse (fromUtf8Lossy file)

/-- The loop of the boot: what is settled is dropped, and the first `null` ends it by
an exception that is caught outside. -/
def unsettled : Members → Members
  | [] => []
  | (k, v) :: ms =>
      match v.get "settled" with
      | none => []
      | some settled =>
          if settled.any truthy then unsettled ms else (k, v) :: unsettled ms

/-- The `sessions` of a boot. -/
def loadSessions (file : List UInt8) : Members :=
  unsettled (((parseFile file).bind entries).getD [])

/-- `loadUsers`, and `loadRefunds` for its own file. -/
def loadObject (file : List UInt8) : Json := (parseFile file).getD (.obj [])

def Store.load : Store → List UInt8 → Json
  | .sessions, file => .obj (loadSessions file)
  | .users, file | .refunds, file => loadObject file

/-- What a load makes of a content that was saved whole. -/
def Store.kept : Store → Members → Members
  | .sessions, content => unsettled content
  | .users, content | .refunds, content => content

/-! ## The kill -/

/-- Where the process is killed. -/
inductive Kill
  | beforeTruncation
  | afterBytes (k : ℕ)
deriving DecidableEq

/-- The file when `new` is being written over `old`. -/
def Store.killed (store : Store) (old new : Members) : Kill → List UInt8
  | .beforeTruncation => store.encode old
  | .afterBytes k => (store.encode new).take k

/-- What was durable survives: the file loads as the old or as the new content, and
so it is after the next save, which writes some change of what was loaded. -/
structure Survives (store : Store) (old new : Members) (file : List UInt8) : Prop where
  load : store.load file = store.load (store.encode old) ∨
    store.load file = store.load (store.encode new)
  save : ∀ change : Json → Members,
    store.load (store.encode (change (store.load file))) =
        store.load (store.encode (change (store.load (store.encode old)))) ∨
      store.load (store.encode (change (store.load file))) =
        store.load (store.encode (change (store.load (store.encode new))))

/-- The kill falls outside the write, or one of the contents is as good as empty. -/
def Store.Harmless (store : Store) (old new : Members) (kill : Kill) : Prop :=
  (∀ k, kill = .afterBytes k → (store.encode new).length ≤ k) ∨
    store.kept old = [] ∨ store.kept new = []

/-! ## What a file loads as -/

section Load

variable {store : Store} {old new content : Members} {kill : Kill} {k : ℕ}

/-- **What is saved whole is loaded.** -/
theorem load_encode : store.load (store.encode content) = .obj (store.kept content) := by
  have hparse : parseFile (store.encode content) = some (.obj content) := by
    rw [parseFile, Store.encode, fromUtf8Lossy_encodeUtf8]
    exact parse_print _ _
  cases store with
  | sessions => simp only [Store.load, loadSessions, hparse, Option.bind_some, entries,
      Option.getD_some, Store.kept]
  | users | refunds => simp only [Store.load, loadObject, hparse, Option.getD_some, Store.kept]

/-- **What is saved in part is lost**: a torn file loads as the empty store. -/
theorem load_torn (hk : k < (store.encode content).length) :
    store.load ((store.encode content).take k) = .obj [] := by
  have hparse : parseFile ((store.encode content).take k) = none := parse_torn _ _ hk
  cases store with
  | sessions => simp only [Store.load, loadSessions, hparse, Option.bind_none, Option.getD_none,
      unsettled]
  | users | refunds => simp only [Store.load, loadObject, hparse, Option.getD_none]

theorem survives_of_load {file : List UInt8} (h : store.load file = store.load (store.encode old) ∨
    store.load file = store.load (store.encode new)) : Survives store old new file := by
  refine ⟨h, fun change => ?_⟩
  rcases h with h | h
  · exact .inl (by rw [h])
  · exact .inr (by rw [h])

/-- **A kill during a save loses what was durable, unless it is harmless.** -/
theorem survives_iff (store : Store) (old new : Members) (kill : Kill) :
    Survives store old new (store.killed old new kill) ↔ store.Harmless old new kill := by
  cases kill with
  | beforeTruncation =>
      refine iff_of_true (survives_of_load (.inl rfl)) (.inl fun k hk => ?_)
      cases hk
  | afterBytes k =>
      rcases Nat.lt_or_ge k (store.encode new).length with hk | hk
      · have hload : store.load (store.killed old new (.afterBytes k)) = .obj [] := load_torn hk
        constructor
        · intro h
          rcases h.load with h | h <;> rw [hload, load_encode] at h
          · exact .inr (.inl (Json.obj.inj h).symm)
          · exact .inr (.inr (Json.obj.inj h).symm)
        · intro h
          rcases h with h | h | h
          · exact absurd (h k rfl) (Nat.not_le.mpr hk)
          · exact survives_of_load (.inl (by rw [hload, load_encode, h]))
          · exact survives_of_load (.inr (by rw [hload, load_encode, h]))
      · have hwhole : store.killed old new (.afterBytes k) = store.encode new :=
          List.take_of_length_le hk
        refine iff_of_true (survives_of_load (.inr (by rw [hwhole]))) (.inl fun k' hk' => ?_)
        obtain rfl := Kill.afterBytes.inj hk'
        exact hk

/-- A kill right after the truncation, while a second refund is recorded. -/
theorem truncated_refunds_lost : ¬∀ (store : Store) (old new : Members) (kill : Kill),
    Survives store old new (store.killed old new kill) := by
  intro h
  let content (files : List Json) : Members := [(utf16 "0xrita", .arr files)]
  have hsurvives := h .refunds (content [.str (utf16 "note1")])
    (content [.str (utf16 "note1"), .str (utf16 "note2")]) (.afterBytes 0)
  have hload : Store.load .refunds [] = .obj [] := rfl
  rcases hsurvives.load with hl | hl <;>
    · rw [show Store.killed .refunds _ _ (.afterBytes 0) = [] from rfl, hload, load_encode] at hl
      cases hl

end Load

end Bartok.Bridge
