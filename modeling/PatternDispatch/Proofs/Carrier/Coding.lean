-- The laws of the stored forms: what is refused, what a stored form looks like
-- in its region, and that decoding gives back what was encoded.
import PatternDispatch.Carrier.Coding
import PatternDispatch.Carrier.Shape

namespace PatternDispatch

/-- Whether a stored value may stand in the region. -/
def Region.Holds : Region → Value → Prop
  | .ref, _ => True
  | .narrow, v => ∃ n, v = .int n
  | .wide, v => ∃ n, v = .long n

namespace Ty

/-- Whether the carrier constructor takes the value in a place of the type: a
scalar has to be of that kind, and a reference is taken as it is. -/
def Takes (t : Ty) (v : Value) : Prop := ∀ k, t = .scalar k → v.scalar? = some k

theorem takes_ref (c : ClassId) (v : Value) : Takes (.ref c) v := by
  intro k h
  cases h

theorem encode_isSome_iff (t : Ty) (v : Value) : (t.encode v).isSome ↔ t.Takes v := by
  cases t with
  | ref c => simp [encode, takes_ref]
  | scalar k => cases k <;> cases v <;> simp [encode, Takes, Value.scalar?]

theorem encode_holds {t : Ty} {v w : Value} (h : t.encode v = some w) : (Region.ofTy t).Holds w := by
  cases t with
  | ref c => trivial
  | scalar k =>
    cases k <;> cases v <;> simp [encode] at h <;> subst h <;>
      simp [Region.ofTy, Scalar.isWide, Region.Holds]

/-- Every value comes back as it was, floating numbers bit for bit. -/
theorem decode_encode {t : Ty} {v w : Value} (h : t.encode v = some w) : t.decode w = some v := by
  cases t with
  | ref c =>
    cases h
    rfl
  | scalar k =>
    cases k <;> cases v <;> simp [encode] at h <;> subst h
    case boolean.bool b => cases b <;> rfl
    all_goals simp [decode]

/-- Whatever was stored, a part of scalar type comes out as a scalar of that kind. -/
theorem scalar?_of_decode {k : Scalar} {v w : Value} (h : (Ty.scalar k).decode w = some v) :
    v.scalar? = some k := by
  cases k <;> cases w <;> simp [decode] at h <;> subst h <;> rfl

end Ty

end PatternDispatch
