-- The law of equality. Two values are equal when nothing of what equality looks at
-- tells them apart, so equality is an equivalence; and types, constants and switches look
-- at no more than that, so they give equal values the same answers.
import PatternDispatch.Proofs.Pattern.Refusals
import PatternDispatch.Switch.Restart
import PatternDispatch.Switch.Table
import PatternDispatch.Switch.Types

namespace PatternDispatch

namespace Value

/-! ## What equality looks at -/

mutual

/-- The value without the parts of carriers, which equality does not look at. -/
def essence : Value → Value
  | object c fields => object c (essences fields)
  | packed c i _ _ _ => packed c i [] [] []
  | listed i _ => listed i []
  | v => v

def essences : List Value → List Value
  | [] => []
  | v :: vs => essence v :: essences vs

end

mutual

/-- Values are equal just when they have one essence, however deep their fields go. -/
theorem equals_iff (a b : Value) : a.equals b ↔ a.essence = b.essence := by
  cases a with
  | object c xs =>
    cases b with
    | object d ys => simp [equals, essence, equalsAll_iff xs ys]
    | _ => simp [equals, essence]
  | _ => cases b <;> simp [equals, essence]

theorem equalsAll_iff (xs ys : List Value) : equalsAll xs ys ↔ essences xs = essences ys := by
  cases xs with
  | nil => cases ys <;> simp [equalsAll, essences]
  | cons x xs =>
    cases ys with
    | nil => simp [equalsAll, essences]
    | cons y ys => simp [equalsAll, essences, equals_iff x y, equalsAll_iff xs ys]

end

theorem equals_refl (a : Value) : a.equals a := (equals_iff a a).mpr rfl

theorem equals_equivalence : Equivalence fun a b : Value => (a.equals b : Prop) := by
  simp only [equals_iff]
  exact eq_equivalence.comap essence

variable {a b c : Value}

/-- A function that looks at the essence only does not tell equal values apart. -/
theorem apply_eq_of_equals {β : Type} {f : Value → β} (hf : ∀ v, f v.essence = f v) (h : a.equals b) :
    f a = f b := by
  rw [← hf a, (equals_iff a b).mp h, hf b]

/-! ## Two references to one object -/

mutual

/-- A comparison that may find two references to be to one object, which ends it, and
need not find it; and so for every two objects that it comes to. -/
inductive Compared : Value → Value → Bool → Prop
  | oneObject {c : ClassId} {fields : List Value} : Compared (object c fields) (object c fields) true
  | fields {c d : ClassId} {xs ys : List Value} {x : Bool} :
    ComparedAll xs ys x → Compared (object c xs) (object d ys) (c == d && x)
  | other {a b : Value} : a.object? = none ∨ b.object? = none → Compared a b (a.equals b)

inductive ComparedAll : List Value → List Value → Bool → Prop
  | nil : ComparedAll [] [] true
  | cons {v w : Value} {vs ws : List Value} {x y : Bool} :
    Compared v w x → ComparedAll vs ws y → ComparedAll (v :: vs) (w :: ws) (x && y)
  | left {v : Value} {vs : List Value} : ComparedAll (v :: vs) [] false
  | right {w : Value} {ws : List Value} : ComparedAll [] (w :: ws) false

end

mutual

/-- Whatever it finds, the answer is that of a comparison field by field. -/
theorem Compared.eq_equals {a b : Value} {x : Bool} (h : Compared a b x) : x = a.equals b := by
  cases h with
  | oneObject => exact (equals_refl _).symm
  | fields hall => rw [equals, hall.eq_equalsAll]
  | other => rfl

theorem ComparedAll.eq_equalsAll {xs ys : List Value} {x : Bool} (h : ComparedAll xs ys x) :
    x = equalsAll xs ys := by
  cases h with
  | nil => rfl
  | cons hhead htail => rw [equalsAll, ← hhead.eq_equals, ← htail.eq_equalsAll]
  | left => rfl
  | right => rfl

end

variable {same : Value → Value → Bool}

mutual

/-- A comparison that knows some objects to be one is such a comparison. -/
theorem compared_equalsSharing (hsame : ∀ a b, same a b → a = b) (a b : Value) :
    Compared a b (equalsSharing same a b) := by
  cases a with
  | object c xs =>
    cases b with
    | object d ys =>
      rw [equalsSharing]
      cases hone : same (object c xs) (object d ys) with
      | true =>
        cases hsame _ _ hone
        exact .oneObject
      | false => exact .fields (comparedAll_equalsAllSharing hsame xs ys)
    | _ => exact .other (Or.inr rfl)
  | _ => exact .other (Or.inl rfl)

theorem comparedAll_equalsAllSharing (hsame : ∀ a b, same a b → a = b) (xs ys : List Value) :
    ComparedAll xs ys (equalsAllSharing same xs ys) := by
  cases xs with
  | nil =>
    cases ys with
    | nil => exact .nil
    | cons y ys => exact .right
  | cons x xs =>
    cases ys with
    | nil => exact .left
    | cons y ys =>
      exact .cons (compared_equalsSharing hsame x y) (comparedAll_equalsAllSharing hsame xs ys)

end

theorem equalsSharing_eq (hsame : ∀ a b, same a b → a = b) (a b : Value) :
    equalsSharing same a b = a.equals b := (compared_equalsSharing hsame a b).eq_equals

/-- There is such a comparison of any two values, and only one answer to come to. -/
theorem compared_iff {x : Bool} : Compared a b x ↔ x = a.equals b := by
  refine ⟨Compared.eq_equals, ?_⟩
  rintro rfl
  -- A comparison that never finds one object.
  have hnone : ∀ v w : Value, (fun _ _ => false : Value → Value → Bool) v w → v = w := by simp
  rw [← equalsSharing_eq hnone]
  exact compared_equalsSharing hnone a b

/-! ## What types and labels look at -/

@[simp] theorem class?_essence (v : Value) : v.essence.class? = v.class? := by cases v <;> rfl

@[simp] theorem scalar?_essence (v : Value) : v.essence.scalar? = v.scalar? := by cases v <;> rfl

@[simp] theorem text?_essence (v : Value) : v.essence.text? = v.text? := by cases v <;> rfl

@[simp] theorem integral?_essence (v : Value) : v.essence.integral? = v.integral? := by cases v <;> rfl

@[simp] theorem isNull_essence (v : Value) : v.essence.isNull = v.isNull := by cases v <;> rfl

@[simp] theorem ordinalIn?_essence (c : ClassId) (v : Value) : v.essence.ordinalIn? c = v.ordinalIn? c := by
  cases v <;> rfl

@[simp] theorem isInstance_essence (r : Registry) (v : Value) (c : ClassId) :
    v.essence.isInstance r c = v.isInstance r c := by
  simp only [isInstance, class?_essence]

theorem equals_congr (h : a.equals b) (c : Value) : a.equals c = b.equals c := by
  rw [Bool.eq_iff_iff, equals_iff, equals_iff, (equals_iff a b).mp h]

end Value

open Value (apply_eq_of_equals)

@[simp] theorem Ty.accepts_essence (r : Registry) (t : Ty) (v : Value) :
    t.accepts r v.essence = t.accepts r v := by
  cases t <;> simp [accepts]

@[simp] theorem Label.accepts_essence (r : Registry) (label : Label) (v : Value) :
    label.accepts r v.essence = label.accepts r v := by
  cases label <;> simp [accepts]

@[simp] theorem NumericKind.key?_essence (kind : NumericKind) (v : Value) :
    kind.key? v.essence = kind.key? v := by
  cases kind <;> cases v <;> rfl

/-! ## Switches -/

theorem NumericTable.dispatch_essence (t : NumericTable) (v : Value) : t.dispatch v.essence = t.dispatch v := by
  simp [dispatch]

theorem StringTable.dispatch_essence (t : StringTable) (v : Value) : t.dispatch v.essence = t.dispatch v := by
  cases v <;> rfl

theorem EnumTable.dispatch_essence (t : EnumTable) (v : Value) : t.dispatch v.essence = t.dispatch v := by
  simp [dispatch]

theorem EnumSwitch.dispatch_essence (t : EnumSwitch) (v : Value) (restart : Nat) :
    t.dispatch v.essence restart = t.dispatch v restart := by
  simp [dispatch, scan]

namespace TypeSwitch

@[simp] theorem scanLabels_essence (r : Registry) (labels : List Label) (v : Value) (restart : Nat) :
    scanLabels r labels v.essence restart = scanLabels r labels v restart := by
  simp [scanLabels]

@[simp] theorem remember_essence (r : Registry) (labels : List Label) (memo : Memo) (v : Value) (restart : Nat) :
    remember r labels memo v.essence restart = remember r labels memo v restart := by
  simp [remember]

/-- The answer is the same, and so are the answers that are kept. -/
theorem dispatch_essence (t : TypeSwitch) (v : Value) (restart : Nat) :
    t.dispatch v.essence restart = t.dispatch v restart := by
  simp [dispatch, scan]

end TypeSwitch

/-! ## Constants -/

/-- A pattern of a constant matches just what is equal to the constant. -/
theorem Pattern.matchCarrier_ofConstant {c : Value} {p : Pattern} {st st' : Store}
    (h : (ofConstant c).exec st = (.ok p, st')) (v : Value) :
    p.matchCarrier v = if v.equals c then pure (.bool true) else Run.noMatch := by
  obtain ⟨tryMatch, u, id, hbody, h⟩ := Build.exec_handle_bind_ok h
  obtain ⟨-, hof, -⟩ := make_ok h
  have hattempt : tryMatch.invoke [v] = pure (if v.equals c then .bool true else .null) := by
    rw [Handle.invoke, hbody]
    rfl
  rw [matchCarrier, hof.attempt_eq, hattempt, pure_bind]
  cases v.equals c <;> rfl

/-! ## The law -/

/-- Equality is an equivalence, floating numbers that are no numbers and objects of any
depth included; and it makes no difference which references are found to be to one
object. Equal values have one runtime class, are accepted by the same types, are equal
to the same constants, are matched by the same patterns of constants, and get one index
from every switch, whatever it keeps of earlier answers. -/
theorem equal_values_are_alike_to_types_constants_and_switches :
    Equivalence (fun a b : Value => (a.equals b : Prop)) ∧
    (∀ (a b : Value) x, Value.Compared a b x ↔ x = a.equals b) ∧
    (∀ same : Value → Value → Bool, (∀ a b, same a b → a = b) →
      ∀ a b, Value.equalsSharing same a b = a.equals b) ∧
    ∀ a b : Value, a.equals b →
      a.class? = b.class? ∧
      (∀ r (t : Ty), t.accepts r a = t.accepts r b) ∧
      (∀ c : Value, a.equals c = b.equals c) ∧
      (∀ (c : Value) (st : Store), ∃ p st', (Pattern.ofConstant c).exec st = (.ok p, st') ∧
        (∀ v, p.matchCarrier v = if v.equals c then pure (.bool true) else Run.noMatch) ∧
        p.matchCarrier a = p.matchCarrier b) ∧
      (∀ t : NumericTable, t.dispatch a = t.dispatch b) ∧
      (∀ t : StringTable, t.dispatch a = t.dispatch b) ∧
      (∀ t : EnumTable, t.dispatch a = t.dispatch b) ∧
      (∀ (t : EnumSwitch) restart, t.dispatch a restart = t.dispatch b restart) ∧
      ∀ (t : TypeSwitch) restart, t.dispatch a restart = t.dispatch b restart := by
  refine ⟨Value.equals_equivalence, fun a b x => Value.compared_iff, ?_, ?_⟩
  · exact fun same hsame => Value.equalsSharing_eq hsame
  · intro a b h
    refine ⟨?_, ?_, Value.equals_congr h, ?_, ?_, ?_, ?_, ?_, ?_⟩
    · exact apply_eq_of_equals Value.class?_essence h
    · exact fun r t => apply_eq_of_equals (t.accepts_essence r) h
    · intro c st
      obtain ⟨p, run, hp, -⟩ := Pattern.mints_ofConstant c st
      have hmatch := Pattern.matchCarrier_ofConstant hp
      refine ⟨p, _, hp, hmatch, ?_⟩
      rw [hmatch, hmatch, Value.equals_congr h]
    · exact fun t => apply_eq_of_equals t.dispatch_essence h
    · exact fun t => apply_eq_of_equals t.dispatch_essence h
    · exact fun t => apply_eq_of_equals t.dispatch_essence h
    · exact fun t restart => apply_eq_of_equals (f := (t.dispatch · restart)) (t.dispatch_essence · restart) h
    · exact fun t restart => apply_eq_of_equals (f := (t.dispatch · restart)) (t.dispatch_essence · restart) h

/-- An object that holds a floating number that is no number, and another object. -/
def nanInside : Value := .object ⟨14⟩ [.float 0x7FC00000, .object ⟨15⟩ [.str "x"]]

/-- The law on it: it equals itself, so the pattern of that constant matches it. -/
theorem an_object_with_a_nan_matches_itself :
    nanInside.equals nanInside ∧
      ∃ p st', (Pattern.ofConstant nanInside).exec (.initial []) = (.ok p, st') ∧
        p.matchCarrier nanInside = pure (.bool true) := by
  obtain ⟨-, -, -, halike⟩ := equal_values_are_alike_to_types_constants_and_switches
  have h : nanInside.equals nanInside := by decide
  obtain ⟨-, -, -, hconstant, -⟩ := halike nanInside nanInside h
  obtain ⟨p, st', hp, hmatch, -⟩ := hconstant nanInside (.initial [])
  refine ⟨h, p, st', hp, ?_⟩
  rw [hmatch, if_pos h]

end PatternDispatch
