import Bartok.Foundation.JsonStrings

/-!
# What a reader makes of an object

A JSON text may write a name twice, and `JSON.parse` keeps the last member of each name. As
values two texts are one if they have the same members, in whatever order, and the same
numbers. A value that is written with each name once has the fewest members of all texts with
that value; so a text with as many members that has other strings is another value.
-/

namespace Bartok.Foundation

open Text

/-- What `JSON.parse` makes of a text, with numbers of the type `N`. -/
inductive JsValue (N : Type)
  | null
  | bool (b : Bool)
  | num (x : N)
  | str (us : Utf16)
  | arr (vs : List (JsValue N))
  | obj (get : Utf16 → Option (JsValue N))

namespace Json

section Value

variable {N : Type} (number : NumLit → N)

mutual

/-- The value of a text, given what the numbers are read as. -/
def value : Json → JsValue N
  | .null => .null
  | .bool b => .bool b
  | .num x => .num (number x)
  | .str us => .str us
  | .arr vs => .arr (elemValues vs)
  | .obj ms => .obj (memberValue ms)

def elemValues : List Json → List (JsValue N)
  | [] => []
  | v :: vs => value v :: elemValues vs

/-- The last member of a name counts. -/
def memberValue : List (Utf16 × Json) → Utf16 → Option (JsValue N)
  | [], _ => none
  | (k, v) :: ms, name => (memberValue ms name).or (if k = name then some (value v) else none)

end

end Value

mutual

/-- No object in the value writes a name twice. -/
def NamesDistinct : Json → Prop
  | .arr vs => ElemsDistinct vs
  | .obj ms => MembersDistinct ms
  | _ => True

def ElemsDistinct : List Json → Prop
  | [] => True
  | v :: vs => NamesDistinct v ∧ ElemsDistinct vs

def MembersDistinct : List (Utf16 × Json) → Prop
  | [] => True
  | (k, v) :: ms => k ∉ ms.map Prod.fst ∧ NamesDistinct v ∧ MembersDistinct ms

end

section Members

variable {N : Type} {number : NumLit → N} {ms ms' a b : List (Utf16 × Json)} {k name : Utf16}
  {x : JsValue N} {colon : ℕ}

theorem memberValue_eq_none : memberValue number ms name = none ↔ name ∉ ms.map Prod.fst := by
  induction ms with
  | nil => simp [memberValue]
  | cons m ms ih =>
      rw [memberValue, Option.or_eq_none_iff, ih, List.map_cons, List.mem_cons, not_or, and_comm]
      apply and_congr_left'
      split
      · next heq => simp [heq]
      · next hne => simp [Ne.symm hne]

theorem memberValue_append :
    memberValue number (a ++ b) name = (memberValue number b name).or (memberValue number a name) := by
  induction a with
  | nil => simp [memberValue]
  | cons m a ih => rw [List.cons_append, memberValue, ih, memberValue, Option.or_assoc]

/-- The last member of a name, with no other behind it. -/
theorem memberValue_split (h : memberValue number ms name = some x) :
    ∃ a v b, ms = a ++ (name, v) :: b ∧ value number v = x ∧ name ∉ b.map Prod.fst := by
  induction ms with
  | nil => cases h
  | cons m ms ih =>
      obtain ⟨k, v⟩ := m
      rw [memberValue] at h
      cases hrest : memberValue number ms name with
      | some y =>
          rw [hrest, Option.some_or] at h
          obtain ⟨a, v', b, rfl, hv, hb⟩ := ih (hrest.trans h)
          exact ⟨(k, v) :: a, v', b, rfl, hv, hb⟩
      | none =>
          rw [hrest, Option.none_or, Option.ite_none_right_eq_some, Option.some.injEq] at h
          obtain ⟨rfl, hv⟩ := h
          exact ⟨[], v, ms, rfl, hv, memberValue_eq_none.mp hrest⟩

/-- The other names do not see the members of this one. -/
theorem memberValue_filter (hne : name ≠ k) :
    memberValue number (ms.filter (·.1 ≠ k)) name = memberValue number ms name := by
  induction ms with
  | nil => rfl
  | cons m ms ih =>
      by_cases hm : m.1 = k
      · rw [List.filter_cons_of_neg (by simp [hm]), ih, memberValue, hm, if_neg (Ne.symm hne),
          Option.or_none]
      · rw [List.filter_cons_of_pos (by simp [hm]), memberValue, ih, memberValue]

theorem membersWeight_append :
    membersWeight colon (a ++ b) = membersWeight colon a + membersWeight colon b := by
  induction a with
  | nil => rw [List.nil_append, membersWeight, Nat.zero_add]
  | cons m a ih =>
      rw [List.cons_append, membersWeight, ih, membersWeight]
      omega

/-- Members that are left out are missed in the weight. -/
theorem membersWeight_filter (p : Utf16 × Json → Bool) :
    membersWeight colon (ms.filter p) = membersWeight colon ms ∨
      membersWeight colon (ms.filter p) + colon ≤ membersWeight colon ms := by
  induction ms with
  | nil => exact .inl rfl
  | cons m ms ih =>
      by_cases hp : p m = true
      · rw [List.filter_cons_of_pos hp, membersWeight, membersWeight]
        omega
      · rw [List.filter_cons_of_neg hp, membersWeight]
        omega

end Members

section Weights

variable {N : Type} {number : NumLit → N} {colon : ℕ}

mutual

/-- A text of the same value has the same weight, or there is a member too many in it. -/
theorem weight_of_value : ∀ (j j' : Json), j.NamesDistinct → value number j' = value number j →
    weight colon j' = weight colon j ∨ weight colon j + colon ≤ weight colon j'
  | .null, j', _, h => by
      cases j' with
      | null => exact .inl rfl
      | _ => simp [value] at h
  | .bool b, j', _, h => by
      cases j' with
      | bool b' => exact .inl rfl
      | _ => simp [value] at h
  | .num x, j', _, h => by
      cases j' with
      | num x' => exact .inl rfl
      | _ => simp [value] at h
  | .str us, j', _, h => by
      cases j' with
      | str us' =>
          obtain rfl : us' = us := by simpa [value] using h
          exact .inl rfl
      | _ => simp [value] at h
  | .arr vs, j', hj, h => by
      cases j' with
      | arr vs' =>
          have hvs : elemValues number vs' = elemValues number vs := by simpa [value] using h
          exact elemsWeight_of_values vs vs' hj hvs
      | _ => simp [value] at h
  | .obj ms, j', hj, h => by
      cases j' with
      | obj ms' =>
          have hms : memberValue number ms' = memberValue number ms := by simpa [value] using h
          exact membersWeight_of_values ms ms' hj (congrFun hms)
      | _ => simp [value] at h

theorem elemsWeight_of_values : ∀ vs vs' : List Json, ElemsDistinct vs →
    elemValues number vs' = elemValues number vs →
      elemsWeight colon vs' = elemsWeight colon vs ∨
        elemsWeight colon vs + colon ≤ elemsWeight colon vs'
  | [], vs', _, h => by
      cases vs' with
      | nil => exact .inl rfl
      | cons v' vs' => simp [elemValues] at h
  | v :: vs, vs', hdistinct, h => by
      cases vs' with
      | nil => simp [elemValues] at h
      | cons v' vs' =>
          obtain ⟨hv, hvs⟩ := hdistinct
          rw [elemValues, elemValues, List.cons.injEq] at h
          have hhead := weight_of_value v v' hv h.1
          have htail := elemsWeight_of_values vs vs' hvs h.2
          rw [elemsWeight, elemsWeight]
          omega

theorem membersWeight_of_values : ∀ ms ms' : List (Utf16 × Json), MembersDistinct ms →
    (∀ name, memberValue number ms' name = memberValue number ms name) →
      membersWeight colon ms' = membersWeight colon ms ∨
        membersWeight colon ms + colon ≤ membersWeight colon ms'
  | [], ms', _, h => by
      cases ms' with
      | nil => exact .inl rfl
      | cons m ms' =>
          have hnone := memberValue_eq_none.mp (h m.1)
          exact absurd List.mem_cons_self hnone
  | (k, v) :: ms, ms', hdistinct, h => by
      obtain ⟨hk, hv, hms⟩ := hdistinct
      have hlast : memberValue number ms' k = some (value number v) := by
        rw [h k, memberValue, memberValue_eq_none.mpr hk, Option.none_or, if_pos rfl]
      obtain ⟨a, v', b, rfl, hv', hb⟩ := memberValue_split hlast
      -- the other names, without the members that the last one of `k` hides
      have hrest : ∀ name, memberValue number (a.filter (·.1 ≠ k) ++ b) name =
          memberValue number ms name := by
        intro name
        by_cases hname : name = k
        · subst hname
          rw [memberValue_eq_none.mpr hk, memberValue_eq_none, List.map_append, List.mem_append]
          rintro (hmem | hmem)
          · obtain ⟨m, hm, hmk⟩ := List.mem_map.mp hmem
            exact absurd hmk (by simpa using (List.mem_filter.mp hm).2)
          · exact hb hmem
        · have hsame := h name
          rw [memberValue_append, memberValue, if_neg (Ne.symm hname), Option.or_none, memberValue,
            if_neg (Ne.symm hname), Option.or_none] at hsame
          rw [memberValue_append, memberValue_filter hname, hsame]
      have hhead := weight_of_value v v' hv hv'
      have htail := membersWeight_of_values ms _ hms hrest
      have hhidden : membersWeight colon (a.filter (·.1 ≠ k)) = membersWeight colon a ∨
          membersWeight colon (a.filter (·.1 ≠ k)) + colon ≤ membersWeight colon a :=
        membersWeight_filter _
      rw [membersWeight_append] at htail
      rw [membersWeight_append, membersWeight, membersWeight]
      omega

end

end Weights

/-- **A part of a string that is replaced by more code units makes another value**, of a text
that writes no name twice. -/
theorem value_ne_of_longer {N : Type} {number : NumLit → N} {u v x y : Text} {j j' : Json}
    {a k colon : ℕ} (hcolon : (y.flatMap units).length < colon) (hj : j.NamesDistinct)
    (h : parse (u ++ (x ++ v)) = some j) (h' : parse (u ++ (y ++ v)) = some j')
    (hu : lex colon none u = some (a, some .plain))
    (hx : lex colon (some .plain) x = some (k, some .plain)) (hy : ∀ c ∈ y, c ≠ '"' ∧ c ≠ '\\')
    (hlong : k < y.length) : value number j' ≠ value number j := by
  intro hvalue
  have hreplaced := weight_replaced h h' hu hx hy
  have hlen := length_le_units y
  have hweight : weight colon j' = weight colon j ∨ weight colon j + colon ≤ weight colon j' :=
    weight_of_value j j' hj hvalue
  omega

end Json

end Bartok.Foundation
