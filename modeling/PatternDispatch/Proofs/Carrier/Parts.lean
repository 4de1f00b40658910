-- The law of single parts. The accessor of one part is made without the rest of
-- the carrier; it is to be had just when the whole carrier is, and on any value at
-- all it does what the accessor of the whole one does.
import PatternDispatch.Proofs.Carrier.Kept
import PatternDispatch.Proofs.Carrier.RoundTrip

namespace PatternDispatch

open CanonicalCarrier (maxSlots ofShape)

variable {ts : List Ty} {st t u : Store}

/-! ## Readers of one part -/

namespace TypedCarrier

variable {own : Bool} {i : Nat} {a b : Handle}

/-- All readers of one part do the same, whatever they are given. -/
theorem ReadsPart.invoke_eq (ha : ReadsPart own ts i a) (hb : ReadsPart own ts i b) (args : List Value) :
    a.invoke args = b.invoke args := by
  obtain ⟨ty, p, hty, hp, hreads⟩ := ha
  obtain ⟨ty', p', hty', hp', hreads'⟩ := hb
  cases hty.symm.trans hty'
  cases hp.symm.trans hp'
  rw [hreads.invoke_eq, hreads'.invoke_eq]

theorem ReadsPart.sig_eq (ha : ReadsPart own ts i a) : ∃ ty, ts[i]? = some ty ∧ a.sig = .unary .carrier ty := by
  obtain ⟨ty, p, hty, -, hreads⟩ := ha
  exact ⟨ty, hty, hreads.sig_eq⟩

theorem scalar?_of_readSlot {s : Shape} {k : Scalar} {p : UInt64} {v w : Value}
    (h : readSlot own s (.scalar k) p w = some v) : v.scalar? = some k := by
  unfold readSlot at h
  split at h
  · obtain ⟨stored, -, hdecode⟩ := Option.bind_eq_some_iff.mp h
    exact Ty.scalar?_of_decode hdecode
  · cases h

/-- A reader of a part of scalar type gives nothing but scalars of that kind. -/
theorem ReadsPart.scalar? (ha : ReadsPart own ts i a) {k : Scalar} (hk : ts[i]? = some (.scalar k))
    {args : List Value} {r : Registry} {run : RunState} {v : Value}
    (h : ((a.invoke args).exec r run).1 = some v) : v.scalar? = some k := by
  obtain ⟨ty, p, hty, -, hreads⟩ := ha
  cases hty.symm.trans hk
  rw [hreads.invoke_eq] at h
  obtain _ | ⟨w, _ | ⟨w', rest⟩⟩ := args
  · cases h
  · simp only [Run.exec_ofOption] at h
    exact scalar?_of_readSlot h
  · cases h

/-! ## Kept carriers have one of their shape behind them -/

/-- The carrier for the types stands over one of their shape that is kept, too, and its
accessors read the parts. -/
structure StandsOver (c : TypedCarrier) (ts : List Ty) (shapes : List (Shape × CanonicalCarrier)) : Prop where
  slots : ¬ maxSlots < (Shape.ofTypes ts).slotCount
  shape : .ofTypes ts ∈ shapes.map Prod.fst
  parts : ∀ (i : Nat) h, c.accessors[i]? = some h → ReadsPart true ts i h

end TypedCarrier

namespace CanonicalCarrier

/-- Whatever becomes of a request, no carrier of any shape is given up. -/
theorem ofShape_subset (s : Shape) (t : Store) :
    t.shapes ⊆ ((ofShape s).exec t).2.shapes ∧ ((ofShape s).exec t).2.typed = t.typed := by
  have outcome := ofShape_outcome s t
  generalize (ofShape s).exec t = out at outcome
  cases outcome with
  | exceeded => exact ⟨List.Subset.refl _, rfl⟩
  | listed => exact ⟨List.Subset.refl _, rfl⟩
  | kept => exact ⟨List.Subset.refl _, rfl⟩
  | made => exact ⟨List.subset_cons_self _ _, rfl⟩
  | taken => exact ⟨List.Subset.refl _, rfl⟩

/-- A carrier of a class of its own is kept. -/
theorem ofShape_owned {s : Shape} {raw : CanonicalCarrier} (h : (ofShape s).exec t = (.ok raw, u))
    (howned : raw.cls.isSome) : ¬ maxSlots < s.slotCount ∧ s ∈ u.shapes.map Prod.fst := by
  by_cases hkeeps : t.Keeps s
  · obtain ⟨hgives, -⟩ := ofShape_gives hkeeps h
    exact ⟨hkeeps.1, List.mem_map_of_mem hgives.mem⟩
  · rw [(ofShape_past hkeeps).2 raw u h] at howned
    cases howned

end CanonicalCarrier

namespace Store

/-- Every kept carrier for types stands over a kept one of their shape. -/
def Backed (st : Store) : Prop := ∀ ts c, (ts, c) ∈ st.typed → TypedCarrier.StandsOver c ts st.shapes

theorem backed_initial (environment : List (String × String)) : (initial environment).Backed := by
  intro ts c h
  cases h

theorem Backed.of_subset (ht : t.Backed) (hshapes : t.shapes ⊆ u.shapes) (htyped : u.typed = t.typed) :
    u.Backed := by
  intro ts c hmem
  rw [htyped] at hmem
  obtain ⟨hslots, hshape, hparts⟩ := ht ts c hmem
  exact ⟨hslots, List.map_subset Prod.fst hshapes hshape, hparts⟩

theorem Backed.ofShape (ht : t.Backed) (s : Shape) : ((ofShape s).exec t).2.Backed :=
  ht.of_subset (CanonicalCarrier.ofShape_subset s t).1 (CanonicalCarrier.ofShape_subset s t).2

theorem Backed.ofTypes (ht : t.Backed) (hs : t.Sound) (ts : List Ty) :
    ((TypedCarrier.ofTypes ts).exec t).2.Backed := by
  have hraw := ht.ofShape (.ofTypes ts)
  have outcome := TypedCarrier.ofTypes_outcome ts hs
  generalize (TypedCarrier.ofTypes ts).exec t = out at outcome
  cases outcome with
  | kept => exact ht
  | refused hgiven => rwa [hgiven] at hraw
  | @made raw u c run hgiven _ hparts =>
    rw [hgiven] at hraw
    by_cases howned : raw.cls.isSome
    · obtain ⟨hslots, hshape⟩ := CanonicalCarrier.ofShape_owned hgiven howned
      intro ts' c' hmem
      simp only [if_pos howned] at hmem
      rcases List.mem_cons.mp hmem with heq | hmem
      · cases heq
        exact ⟨hslots, hshape, howned ▸ hparts⟩
      · exact hraw ts' c' hmem
    · simp only [if_neg howned]
      exact hraw.of_subset (List.Subset.refl _) rfl

theorem Backed.componentOf (ht : t.Backed) (hs : t.Sound) (ts : List Ty) (i : Nat) :
    ((TypedCarrier.componentOf ts i).exec t).2.Backed := by
  have hraw := ht.ofShape (.ofTypes ts)
  have outcome := TypedCarrier.componentOf_outcome ts i hs
  generalize (TypedCarrier.componentOf ts i).exec t = out at outcome
  cases outcome with
  | outOfBounds => exact ht
  | refused _ hgiven => rwa [hgiven] at hraw
  | made _ hgiven =>
    rw [hgiven] at hraw
    exact hraw.of_subset (List.Subset.refl _) rfl

theorem Step.backed (h : Step st t) (hs : st.Sound) (hst : st.Backed) : t.Backed := by
  cases h with
  | runs => exact hst.of_subset (List.Subset.refl _) rfl
  | defines => exact hst.of_subset (List.Subset.refl _) rfl
  | fixes => exact hst.of_subset (List.Subset.refl _) rfl
  | installs settings =>
    obtain ⟨registry, _ | _, environment, shapes, typed, run⟩ := st <;>
      exact hst.of_subset (List.Subset.refl _) rfl
  | shape s => exact hst.ofShape s
  | types ts => exact hst.ofTypes hs ts
  | part ts i => exact hst.componentOf hs ts i

theorem Leads.backed (h : st.Leads t) (hs : st.Sound) (hst : st.Backed) : t.Backed := by
  induction h with
  | refl => exact hst
  | tail hlead step ih => exact step.backed (Leads.sound hlead hs) ih

theorem Reachable.backed (h : st.Reachable) : st.Backed := by
  obtain ⟨environment, hlead⟩ := h
  exact hlead.backed (sound_initial environment) (backed_initial environment)

end Store

/-! ## What requests for one part and for all of them give -/

namespace TypedCarrier

variable {i : Nat} {c : TypedCarrier} {a b : Handle}

/-- Whether there is an accessor of one part: there is the part, and a carrier of the shape. -/
theorem componentOf_ok_iff (hs : st.Sound) :
    (∃ a, ((componentOf ts i).exec st).1 = .ok a) ↔
      i < ts.length ∧ ∃ raw, ((ofShape (.ofTypes ts)).exec st).1 = .ok raw := by
  have outcome := componentOf_outcome ts i hs
  generalize (componentOf ts i).exec st = out at outcome
  cases outcome with
  | outOfBounds hle => simp [Nat.not_lt_of_le hle]
  | refused _ hraw => simp [hraw]
  | made hi hraw => simp [hi, hraw]

/-- A kept carrier of the shape answers at once. -/
theorem StandsOver.ofShape_ok (h : StandsOver c ts st.shapes) :
    ∃ raw, ((ofShape (.ofTypes ts)).exec st).1 = .ok raw := by
  have outcome := CanonicalCarrier.ofShape_outcome (.ofTypes ts) st
  generalize (ofShape (.ofTypes ts)).exec st = out at outcome
  cases outcome with
  | exceeded hslots => exact absurd hslots h.slots
  | listed => exact ⟨_, rfl⟩
  | kept => exact ⟨_, rfl⟩
  | made => exact ⟨_, rfl⟩
  | taken _ _ hnone =>
    obtain ⟨⟨s, raw⟩, hmem, rfl⟩ := List.mem_map.mp h.shape
    have hne := List.lookup_eq_none_iff.mp hnone _ hmem
    simp at hne

/-- Whether there is a carrier for the types: there is one of their shape. -/
theorem ofTypes_ok_iff (hs : st.Sound) (hst : st.Backed) :
    (∃ c, ((ofTypes ts).exec st).1 = .ok c) ↔ ∃ raw, ((ofShape (.ofTypes ts)).exec st).1 = .ok raw := by
  have outcome := ofTypes_outcome ts hs
  generalize (ofTypes ts).exec st = out at outcome
  cases outcome with
  | @kept c hkept => exact iff_of_true ⟨c, rfl⟩ (hst ts c (mem_of_lookup hkept)).ofShape_ok
  | refused hraw => simp [hraw]
  | made hraw => simp [hraw]

theorem component_eq_ok_iff : c.component i = .ok b ↔ c.accessors[i]? = some b := by
  unfold component
  cases c.accessors[i]? <;> simp

theorem parts_of_ofTypes (hs : st.Sound) (hst : st.Backed) (h : ((ofTypes ts).exec st).1 = .ok c) :
    c.accessors.length = ts.length ∧
      ∀ (i : Nat) b, c.accessors[i]? = some b → ReadsPart (st.specializes (.ofTypes ts)) ts i b := by
  have outcome := ofTypes_outcome ts hs
  generalize (ofTypes ts).exec st = out at outcome h
  cases outcome with
  | kept hkept =>
    cases h
    have hmem := mem_of_lookup hkept
    obtain ⟨hserves, -, hspec⟩ := hs.typed ts c hmem
    rw [hspec]
    exact ⟨hserves.count, (hst ts c hmem).parts⟩
  | refused => cases h
  | made hraw hserves hparts =>
    cases h
    obtain ⟨-, hown, -⟩ := (CanonicalCarrier.ofShape_sound hs).2 _ _ hraw
    exact ⟨hserves.count, hown ▸ hparts⟩

/-! ## The law -/

/-- The accessor of one part is to be had just when the whole carrier is and has that
part. Made under one limit, however far apart, the accessor of the part and that of the
whole carrier have the signature of the part and do the same on any arguments, carriers
of other shapes and values of other sorts among them; and of a part of scalar type
nothing comes but scalars of that kind. -/
theorem one_part_reads_as_the_whole_carrier_does (hst : st.Reachable) (ht : t.Reachable)
    (hlimit : t.inForce.specializeLimit = st.inForce.specializeLimit) (ts : List Ty) (i : Nat) :
    ((∃ a, ((componentOf ts i).exec st).1 = .ok a) ↔
      ∃ c b, ((ofTypes ts).exec st).1 = .ok c ∧ c.component i = .ok b) ∧
    ∀ c a b, ((ofTypes ts).exec st).1 = .ok c → c.component i = .ok b →
      ((componentOf ts i).exec t).1 = .ok a →
      ∃ ty, ts[i]? = some ty ∧ a.sig = .unary .carrier ty ∧ b.sig = .unary .carrier ty ∧
        (∀ args, a.invoke args = b.invoke args) ∧
        ∀ k, ty = .scalar k → ∀ args r run v, ((a.invoke args).exec r run).1 = some v → v.scalar? = some k := by
  refine ⟨?_, ?_⟩
  · rw [componentOf_ok_iff hst.sound, ← ofTypes_ok_iff hst.sound hst.backed]
    constructor
    · rintro ⟨hi, c, hc⟩
      have hlt : i < c.accessors.length := (parts_of_ofTypes hst.sound hst.backed hc).1 ▸ hi
      exact ⟨c, _, hc, component_eq_ok_iff.mpr (List.getElem?_eq_getElem hlt)⟩
    · rintro ⟨c, b, hc, hb⟩
      have hlt := (List.getElem?_eq_some_iff.mp (component_eq_ok_iff.mp hb)).1
      exact ⟨(parts_of_ofTypes hst.sound hst.backed hc).1 ▸ hlt, c, hc⟩
  · intro c a b hc hb ha
    have hwhole := (parts_of_ofTypes hst.sound hst.backed hc).2 i b (component_eq_ok_iff.mp hb)
    have hpart := part_of_componentOf ht.sound (Prod.ext ha rfl)
    rw [specializes_eq hlimit] at hpart
    obtain ⟨ty, hty, hasig⟩ := hpart.sig_eq
    obtain ⟨ty', hty', hbsig⟩ := hwhole.sig_eq
    cases hty.symm.trans hty'
    refine ⟨ty, hty, hasig, hbsig, hpart.invoke_eq hwhole, ?_⟩
    rintro k rfl args r run v hv
    exact hpart.scalar? hty hv

/-- The law for the second part of two, with the request for it alone after one for
another carrier. -/
theorem the_second_of_two_parts_reads_alike :
    ∃ c a b, ((ofTypes [.string, .long]).exec (.initial [])).1 = .ok c ∧ c.component 1 = .ok b ∧
      ((componentOf [.string, .long] 1).exec ((ofTypes [.scalar .int]).exec (.initial [])).2).1 = .ok a ∧
      (∀ args, a.invoke args = b.invoke args) ∧
      ∀ args r run v, ((a.invoke args).exec r run).1 = some v → v.scalar? = some .long := by
  have hst : (Store.initial []).Reachable := Store.reachable_initial []
  have ht : ((ofTypes [.scalar .int]).exec (.initial [])).2.Reachable := hst.leads (Store.Step.types _ _).leads
  obtain ⟨hok, hsame⟩ := one_part_reads_as_the_whole_carrier_does hst ht rfl [.string, .long] 1
  obtain ⟨c, b, hc, hb⟩ := hok.mp ⟨_, rfl⟩
  obtain ⟨a, ha⟩ :
      ∃ a, ((componentOf [.string, .long] 1).exec ((ofTypes [.scalar .int]).exec (.initial [])).2).1 = .ok a :=
    ⟨_, rfl⟩
  obtain ⟨ty, hty, -, -, hinvoke, hscalar⟩ := hsame c a b hc hb ha
  cases hty
  exact ⟨c, a, b, hc, hb, ha, hinvoke, hscalar .long rfl⟩

end TypedCarrier

end PatternDispatch
