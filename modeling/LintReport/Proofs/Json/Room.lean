import LintReport.Json.Parser
import Mathlib.Tactic

/-!
# Room for Values

The reader opens a limited number of brackets and takes integers of a limited number of digits. A
value fits where neither limit is met (`Fits`); whatever is read fits, and with it each of its
parts. The other side is a text with more open brackets than there is room for, which is not read at
all.

That a value fits says nothing of its strings and of the number of its elements: neither is limited.

## Main results

* `parse_fits`: **what was read fits**.
* `Fits.of_lookup?`: the value of a key fits where its object does.
* `parse_openBrackets`: **a text of too many open brackets ends the reader** at its limit.
-/

namespace LintReport.Json

/-! ### Values that fit -/

mutual

/-- Whether there is room for a value with a number of brackets that may still be opened. -/
def Fits : Nat → Json → Prop
  | room, arr items => 0 < room ∧ FitsItems (room - 1) items
  | room, obj members => 0 < room ∧ FitsMembers (room - 1) members
  | _, int i => Numeral.isShort i = true
  | _, null => True
  | _, bool _ => True
  | _, float _ => True
  | _, str _ => True

/-- Whether there is room for each item. -/
def FitsItems : Nat → List Json → Prop
  | _, [] => True
  | room, v :: rest => Fits room v ∧ FitsItems room rest

/-- Whether there is room for the value of each member. -/
def FitsMembers : Nat → List (String × Json) → Prop
  | _, [] => True
  | room, (_, v) :: rest => Fits room v ∧ FitsMembers room rest

end

/-- Items fit where each of them does. -/
theorem fitsItems_iff {room : Nat} {items : List Json} :
    FitsItems room items ↔ ∀ v ∈ items, Fits room v := by
  induction items with
  | nil => simp [FitsItems]
  | cons v rest ih => rw [FitsItems, ih, List.forall_mem_cons]

/-- Setting a key to a value that fits leaves members that fit. -/
theorem FitsMembers.insert {room : Nat} {members : List (String × Json)} {key : String} {v : Json}
    (hv : Fits room v) (hmembers : FitsMembers room members) :
    FitsMembers room (Json.insert key v members) := by
  induction members with
  | nil => exact ⟨hv, trivial⟩
  | cons m rest ih =>
    obtain ⟨hm, hrest⟩ := hmembers
    rw [Json.insert]
    split
    · exact ⟨hv, hrest⟩
    · exact ⟨hm, ih hrest⟩

/-- The value of a key fits where the members do. -/
theorem FitsMembers.of_lookup? {room : Nat} {members : List (String × Json)} {key : String}
    {v : Json} (hmembers : FitsMembers room members) (h : lookup? key members = some v) :
    Fits room v := by
  induction members with
  | nil => cases h
  | cons m rest ih =>
    rw [lookup?] at h
    split at h
    · cases h
      exact hmembers.1
    · exact ih hmembers.2 h

/-- **The value of a key fits** where its object does, with one bracket less. -/
theorem Fits.of_field? {room : Nat} {key : String} {v w : Json} (hv : Fits room v)
    (h : v.field? key = some w) : Fits (room - 1) w := by
  cases v with
  | obj members => exact hv.2.of_lookup? h
  | _ => cases h

/-- An integer below the power of ten with the most digits is short. -/
theorem isShort_of_lt {i : Int} (h : i.natAbs < 10 ^ Numeral.maxDigits) :
    Numeral.isShort i = true := by
  rw [Numeral.isShort, decide_eq_true_eq]
  exact Nat.toDigits_length 10 i.natAbs Numeral.maxDigits (by decide) h

/-! ### What is read fits -/

/-- Whether a value is neither an array nor an object. -/
def isScalar : Json → Bool
  | arr _ | obj _ => false
  | _ => true

/-- A word is a scalar. -/
theorem isScalar_of_word? {cs rest : List Char} {v : Json} (h : word? cs = some (v, rest)) :
    isScalar v = true := by
  have hwords : ∀ w ∈ words, isScalar w.2 = true := by decide
  rw [word?] at h
  obtain ⟨⟨word, w⟩, hmem, hfound⟩ := List.exists_of_findSome?_eq_some h
  dsimp only at hfound
  split at hfound
  · cases hfound
    exact hwords _ hmem
  · cases hfound

/-- A number is a scalar. -/
theorem isScalar_of_number? {cs rest : List Char} {v : Json} (h : number? cs = some (v, rest)) :
    isScalar v = true := by
  have hunsigned {negative : Bool} {cs : List Char}
      (h : unsignedNumber? negative cs = some (v, rest)) : isScalar v = true := by
    rw [unsignedNumber?] at h
    simp only [Option.bind_eq_bind, Option.bind_eq_some_iff] at h
    obtain ⟨⟨whole, after⟩, -, hfound⟩ := h
    dsimp only at hfound
    split at hfound
    · cases hfound
      rfl
    · split at hfound <;>
      · cases hfound
        rfl
  rw [number?.eq_def] at h
  split at h <;> exact hunsigned h

/-- A scalar that the reader lets through fits: an integer only where it is short. -/
theorem fits_of_withinDigits {room : Nat} {v w : Json} {cs rest : List Char}
    (hv : isScalar v = true) (h : withinDigits (v, cs) = .ok (w, rest)) : Fits room w := by
  cases v with
  | int i =>
    rw [withinDigits] at h
    split at h
    · next hshort =>
      cases h
      exact hshort
    · cases h
  | arr _ | obj _ => cases hv
  | _ =>
    cases h
    trivial

/-- Two steps have a result where the first has one and the second has one from there. -/
theorem exists_of_bind {α β : Type} {x : Except Fault α} {f : α → Except Fault β} {b : β}
    (h : x >>= f = .ok b) : ∃ a, x = .ok a ∧ f a = .ok b := by
  cases x with
  | error fault => cases h
  | ok a => exact ⟨a, rfl, h⟩

mutual

/-- **A value that is read fits** into the room that there was. -/
theorem value_fits : ∀ {budget room : Nat} {cs rest : List Char} {v : Json},
    value budget room cs = .ok (v, rest) → Fits room v
  | 0, _, _, _, _, h | _ + 1, _, [], _, _, h => by cases h
  | budget + 1, room, c :: cs, rest, v, h => by
    rw [value] at h
    split at h
    · obtain ⟨s, -, hs⟩ := exists_of_bind h
      cases hs
      trivial
    split at h
    · cases h
    next hroom =>
    have hpos (hopening : isOpening c = true) : 0 < room := by
      simpa [hopening, Nat.pos_iff_ne_zero] using hroom
    split at h
    · next hbracket =>
      have hroom := hpos (by simp [isOpening, hbracket])
      split at h
      · cases h
        exact ⟨hroom, trivial⟩
      · have hnone : FitsItems (room - 1) [] := trivial
        obtain ⟨items, rfl, hitems⟩ := elements_fits hnone h
        exact ⟨hroom, hitems⟩
    split at h
    · next hbrace =>
      have hroom := hpos (by simp [isOpening, hbrace])
      split at h
      · cases h
        exact ⟨hroom, trivial⟩
      · have hnone : FitsMembers (room - 1) [] := trivial
        obtain ⟨mems, rfl, hmems⟩ := members_fits hnone h
        exact ⟨hroom, hmems⟩
    · split at h
      · next found hfound =>
        refine fits_of_withinDigits ?_ h
        rw [Option.orElse_eq_orElse, Option.orElse_eq_or] at hfound
        rcases Option.or_eq_some_iff.1 hfound with hword | ⟨-, hnumber⟩
        · exact isScalar_of_word? hword
        · exact isScalar_of_number? hnumber
      · cases h

/-- Elements that are read fit behind others that do. -/
theorem elements_fits : ∀ {budget room : Nat} {done : List Json} {cs rest : List Char} {v : Json},
    FitsItems room done → elements budget room done cs = .ok (v, rest) →
    ∃ items, v = .arr items ∧ FitsItems room items
  | 0, _, _, _, _, _, _, h => by cases h
  | budget + 1, room, done, cs, rest, v, hdone, h => by
    rw [elements] at h
    obtain ⟨⟨w, after⟩, hw, h⟩ := exists_of_bind h
    have hall : FitsItems room (w :: done) := ⟨value_fits hw, hdone⟩
    dsimp only at h
    split at h
    · cases h
      refine ⟨_, rfl, ?_⟩
      rw [fitsItems_iff] at hall ⊢
      intro u hu
      exact hall u (List.mem_reverse.1 hu)
    · exact elements_fits hall h
    · cases h

/-- Members that are read fit behind others that do. -/
theorem members_fits : ∀ {budget room : Nat} {done : List (String × Json)} {cs rest : List Char}
    {v : Json}, FitsMembers room done → members budget room done cs = .ok (v, rest) →
    ∃ mems, v = .obj mems ∧ FitsMembers room mems
  | 0, _, _, _, _, _, _, h | _ + 1, _, _, [], _, _, _, h => by cases h
  | budget + 1, room, done, c :: cs, rest, v, hdone, h => by
    rw [members] at h
    split at h
    · obtain ⟨⟨key, after⟩, -, h⟩ := exists_of_bind h
      dsimp only at h
      split at h
      · obtain ⟨⟨w, after⟩, hw, h⟩ := exists_of_bind h
        have hall : FitsMembers room (Json.insert key w done) := hdone.insert (value_fits hw)
        dsimp only at h
        split at h
        · cases h
          exact ⟨_, rfl, hall⟩
        · exact members_fits hall h
        · cases h
      · cases h
    · cases h

end

/-- **What was read fits.** -/
theorem parse_fits {text : String} {v : Json} (h : parse text = .ok v) : Fits depthLimit v := by
  have hchars : parseChars text.toList = .ok v := by
    rw [parse] at h
    cases hread : parseChars text.toList <;> rw [hread] at h <;> cases h
    rfl
  rw [parseChars.eq_def] at hchars
  split at hchars
  · cases hchars
  split at hchars
  · cases hchars
  next w rest hvalue =>
  split at hchars
  · cases hchars
    exact value_fits hvalue
  · cases hchars

/-! ### What is not read -/

/-- **Too many open brackets end the reader** at its limit, whatever follows them. -/
theorem value_brackets {room n : Nat} (hn : room < n) {budget : Nat} (hbudget : 2 * room < budget)
    (rest : List Char) :
    value budget room (List.replicate n '[' ++ rest) = .error (.beyond .nesting) := by
  induction room generalizing n budget with
  | zero =>
    obtain ⟨n, rfl⟩ := Nat.exists_eq_succ_of_ne_zero (by omega : n ≠ 0)
    obtain ⟨budget, rfl⟩ := Nat.exists_eq_succ_of_ne_zero (by omega : budget ≠ 0)
    rfl
  | succ room ih =>
    obtain ⟨n, rfl⟩ := Nat.exists_eq_add_of_le' (by omega : 2 ≤ n)
    obtain ⟨budget, rfl⟩ := Nat.exists_eq_add_of_le' (by omega : 2 ≤ budget)
    have hinner := @ih (n + 1) (by omega) budget (by omega)
    have helements : elements (budget + 1) room [] (List.replicate (n + 1) '[' ++ rest) =
        .error (.beyond .nesting) := by
      rw [elements, hinner]
      rfl
    exact helements

/-- A text of open brackets. -/
def openBrackets (n : Nat) : String := String.ofList (List.replicate n '[')

/-- **A text of too many open brackets is beyond the reader.** -/
theorem parse_openBrackets {n : Nat} (hn : depthLimit < n) :
    parse (openBrackets n) = .error (.beyond .nesting) := by
  obtain ⟨m, rfl⟩ := Nat.exists_eq_add_of_le' (by omega : 1 ≤ n)
  have hskip : skipSpace (List.replicate (m + 1) '[') = List.replicate (m + 1) '[' := rfl
  have hbudget : 2 * depthLimit < 2 * (List.replicate (m + 1) '[').length + 2 := by
    rw [List.length_replicate]
    omega
  have hvalue := value_brackets hn hbudget []
  rw [List.append_nil] at hvalue
  rw [parse, openBrackets, String.toList_ofList, parseChars, hskip, hvalue]
  · rfl
  · intro tail htail
    cases htail

/-- Open brackets hold no other character. -/
theorem notMem_openBrackets {c : Char} (hc : c ≠ '[') (n : Nat) :
    c ∉ (openBrackets n).toList := by
  rw [openBrackets, String.toList_ofList]
  exact fun h => hc (List.eq_of_mem_replicate h)

end LintReport.Json
