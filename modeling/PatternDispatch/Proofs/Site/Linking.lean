-- The law of lazy linking. A call site calls its linker once or never: on the first call if
-- it may relink. What the linker gives is published if it has the signature of the site, and
-- every call from then on, the first one included, runs what was published.
import PatternDispatch.Proofs.Running
import PatternDispatch.Site.Lazy

namespace PatternDispatch

variable {site : LazySite} {h : Handle} {name : String} {linked : Option (List Value)} {args : List Value}
  {r : Registry} {s t : RunState} {n : Nat}

/-! ## Calls one after another -/

/-- The calls one after another, each over the classes as they stand then, with what each of
them gives. -/
def serve (f : List Value → Run Value) :
    List (Registry × List Value) → RunState → List (Option Value) × RunState
  | [], s => ([], s)
  | (r, args) :: calls, s =>
    let (v, t) := (f args).exec r s
    let (vs, u) := serve f calls t
    (v :: vs, u)

/-- Two callees serve alike from two states if their first calls come out alike, and the
other calls from there. -/
theorem serve_cons_congr {f g : List Value → Run Value} {calls : List (Registry × List Value)}
    (hfirst : (f args).exec r s = (g args).exec r t)
    (hrest : serve f calls ((g args).exec r t).2 = serve g calls ((g args).exec r t).2) :
    serve f ((r, args) :: calls) s = serve g ((r, args) :: calls) t := by
  simp only [serve, hfirst, hrest]

namespace LazySite

/-! ## What is kept of a site -/

/-- The state has the cell of the site, with what linked the site, and its linker was called
so many times. -/
structure Stands (site : LazySite) (name : String) (linked : Option (List Value)) (n : Nat) (s : RunState) :
    Prop where
  cell_eq : s.links[site.cell]? = some linked
  count_eq : s.count name = n

theorem Stands.linkedBy_eq (h : site.Stands name linked n s) : site.linkedBy s = linked := by
  unfold linkedBy
  rw [h.cell_eq]
  rfl

/-- Running the handle leaves what is kept of the site as it is, unless a call of the site
would link. The cell is the site's own: a handle changes it by calling the site, or not at
all. -/
def SparedBy (site : LazySite) (name : String) (h : Handle) : Prop :=
  ∀ (args : List Value) (r : Registry) (s : RunState) linked n, site.linksOn linked = false →
    site.Stands name linked n s → site.Stands name linked n ((h.invoke args).exec r s).2

/-- However the site is called from the state on, it is the handle that runs, and the link
and the calls of the linker stay as they are. -/
structure Settled (site : LazySite) (name : String) (linked : Option (List Value)) (n : Nat) (h : Handle)
    (s : RunState) : Prop where
  serve_eq : ∀ calls, serve site.invoke calls s = serve h.invoke calls s
  stands : ∀ calls, site.Stands name linked n (serve site.invoke calls s).2
  isLinked_eq : ∀ calls, site.isLinked (serve site.invoke calls s).2 = linked.isSome
  current_eq : ∀ calls, site.current (serve site.invoke calls s).2 = h

/-! ## One call -/

/-- What a call of the site leaves in the state before the linked handle runs. -/
def linkedState (site : LazySite) (name : String) (args : List Value) (s : RunState) : RunState :=
  { s with calls := name :: s.calls, links := s.links.setIfInBounds site.cell (some args) }

theorem Stands.linkedState (h : site.Stands name none n s) (args : List Value) :
    site.Stands name (some args) (n + 1) (site.linkedState name args s) := by
  refine ⟨?_, ?_⟩
  · have hlt := (Array.getElem?_eq_some_iff.mp h.cell_eq).1
    simp [LazySite.linkedState, hlt]
  · simp [LazySite.linkedState, RunState.count, ← h.count_eq]

/-- A call that does not link runs the handle that stands. -/
theorem Stands.exec_invoke (h : site.Stands name linked n s) (hlinks : site.linksOn linked = false)
    (args : List Value) (r : Registry) :
    (site.invoke args).exec r s = ((site.chosen linked args).invoke args).exec r s := by
  have hget : (get : Run RunState).exec r s = (some s, s) := rfl
  unfold LazySite.invoke
  rw [Run.exec_bind_of_some hget]
  simp only [h.linkedBy_eq, hlinks, Bool.false_eq_true, if_false]

/-- A call that links runs the handle that it published. -/
theorem Stands.exec_invoke_linking (h : site.Stands name none n s) (hcounter : site.linker.counter = some name)
    (hrelink : site.relink = true) (args : List Value) (r : Registry) :
    (site.invoke args).exec r s = ((site.published args).invoke args).exec r (site.linkedState name args s) := by
  have hget : (get : Run RunState).exec r s = (some s, s) := rfl
  have hlinks : site.linksOn none = true := by simp [linksOn, hrelink]
  have hlink : (site.link args).exec r s = (some (), site.linkedState name args s) := by
    unfold link
    rw [hcounter]
    rfl
  unfold LazySite.invoke
  rw [Run.exec_bind_of_some hget]
  simp only [h.linkedBy_eq, hlinks, if_true]
  rw [Run.exec_bind_of_some hlink, chosen, if_pos hrelink, linkedAfter, hlinks]
  rfl

/-! ## All calls -/

/-- Once calls do not link any more, they all run one handle. -/
theorem Stands.settled (hs : site.Stands name linked n s) (hlinks : site.linksOn linked = false)
    (hspared : site.SparedBy name h) (hchosen : ∀ args, site.chosen linked args = h)
    (hstanding : site.standing linked = h) : site.Settled name linked n h s := by
  have hall : ∀ calls, serve site.invoke calls s = serve h.invoke calls s ∧
      site.Stands name linked n (serve h.invoke calls s).2 := by
    intro calls
    induction calls generalizing s with
    | nil => exact ⟨rfl, hs⟩
    | cons call calls ih =>
      obtain ⟨r, args⟩ := call
      have hcall := hs.exec_invoke hlinks args r
      rw [hchosen] at hcall
      obtain ⟨hserve, hstands⟩ := ih (hspared args r s linked n hlinks hs)
      exact ⟨serve_cons_congr hcall hserve, hstands⟩
  have hstands : ∀ calls, site.Stands name linked n (serve site.invoke calls s).2 := by
    intro calls
    rw [(hall calls).1]
    exact (hall calls).2
  refine ⟨fun calls => (hall calls).1, hstands, ?_, ?_⟩
  · intro calls
    rw [isLinked, (hstands calls).linkedBy_eq]
  · intro calls
    rw [current, (hstands calls).linkedBy_eq, hstanding]

/-- A site that may not relink runs its generic handle. -/
theorem Stands.settled_generic (hs : site.Stands name none n s) (hrelink : site.relink = false)
    (hspared : site.SparedBy name site.generic) : site.Settled name none n site.generic s := by
  apply hs.settled _ hspared _ rfl
  · simp [linksOn, hrelink]
  · simp [chosen, hrelink]

/-- A site that has linked runs what it published. -/
theorem Stands.settled_published (hs : site.Stands name (some args) n s) (hrelink : site.relink = true)
    (hspared : site.SparedBy name (site.published args)) :
    site.Settled name (some args) n (site.published args) s := by
  apply hs.settled _ hspared _ rfl
  · simp [linksOn]
  · simp [chosen, hrelink, linkedAfter, linksOn, LazySite.standing]

theorem published_eq (site : LazySite) (args : List Value) :
    site.published args =
      if (site.linker.choose args).sig = site.generic.sig then site.linker.choose args else site.generic := rfl

theorem sparedBy_published (hgeneric : site.SparedBy name site.generic)
    (hlinked : ∀ args, site.SparedBy name (site.linker.choose args)) (args : List Value) :
    site.SparedBy name (site.published args) := by
  rw [published_eq]
  split
  · exact hlinked args
  · exact hgeneric

theorem sig_published (site : LazySite) (args : List Value) : (site.published args).sig = site.sig := by
  rw [published_eq]
  split
  · assumption
  · rfl

theorem sig_current (site : LazySite) (s : RunState) : (site.current s).sig = site.sig := by
  unfold current
  cases site.linkedBy s with
  | none => rfl
  | some args => exact sig_published site args

/-- The first call links, and it and all later calls run what was published then. -/
theorem Stands.serve_linking (hs : site.Stands name none n s) (hcounter : site.linker.counter = some name)
    (hrelink : site.relink = true) (hspared : site.SparedBy name (site.published args)) (r : Registry)
    (calls : List (Registry × List Value)) :
    serve site.invoke ((r, args) :: calls) s =
        serve (site.published args).invoke ((r, args) :: calls) (site.linkedState name args s) ∧
      site.Settled name (some args) (n + 1) (site.published args) (serve site.invoke ((r, args) :: calls) s).2 := by
  have hlinked := hs.linkedState args
  have hafter := hspared args r _ _ _ (by simp [linksOn]) hlinked
  have hserve := serve_cons_congr (hs.exec_invoke_linking hcounter hrelink args r)
    ((hafter.settled_published hrelink hspared).serve_eq calls)
  refine ⟨hserve, ?_⟩
  have hsettled := hlinked.settled_published hrelink hspared
  have hstands := hsettled.stands ((r, args) :: calls)
  rw [hsettled.serve_eq, ← hserve] at hstands
  exact hstands.settled_published hrelink hspared

/-! ## The law -/

/-- A call site starts unlinked. If it may not relink, all calls run the generic handle, and
the linker is never called. If it may, the first call calls the linker with its arguments,
and that call and all later ones run one handle: what the linker gave if it has the
signature of the site, and else the generic one; the linker is not called again. The site
has the signature of the generic handle all along, and so has the handle that stands. -/
theorem a_call_site_links_on_its_first_call {generic : Handle} {choose : List Value → Handle} {made : LazySite}
    {st st' : Store} {relink : Bool} (hmade : (make generic ⟨some name, choose⟩).exec st = (.ok made, st'))
    (hsite : site = made.withRelink relink) (hgeneric : site.SparedBy name generic)
    (hchoose : ∀ args, site.SparedBy name (choose args)) :
    site.Stands name none (st.run.count name) st'.run ∧
    (∀ s, site.sig = generic.sig ∧ (site.current s).sig = generic.sig) ∧
    ∀ s n, site.Stands name none n s →
      (relink = false → site.Settled name none n generic s) ∧
      (relink = true → ∀ r args calls,
        let h := if (choose args).sig = generic.sig then choose args else generic
        serve site.invoke ((r, args) :: calls) s =
            serve h.invoke ((r, args) :: calls) (site.linkedState name args s) ∧
          site.Settled name (some args) (n + 1) h (serve site.invoke ((r, args) :: calls) s).2) := by
  cases hmade
  subst hsite
  refine ⟨⟨?_, rfl⟩, fun s => ⟨rfl, sig_current _ s⟩, ?_⟩
  · simp [withRelink]
  · intro s n hs
    refine ⟨?_, ?_⟩
    · rintro rfl
      exact hs.settled_generic rfl hgeneric
    · rintro rfl r args calls
      exact hs.serve_linking rfl rfl (sparedBy_published hgeneric hchoose args) r calls

/-- Gives zero, whatever the argument. -/
def zero : Handle := ⟨.unary .int .int, .unary 1 fun _ => pure (.int 0)⟩

/-- Gives the first argument that the linker saw. -/
def firstSeen (args : List Value) : Handle := ⟨.unary .int .int, .constant 2 (args.headD .null)⟩

theorem sparedBy_zero (site : LazySite) (name : String) : site.SparedBy name zero := by
  intro args r s linked n _ hs
  rcases args with _ | ⟨v, _ | ⟨w, rest⟩⟩ <;> exact hs

theorem sparedBy_firstSeen (site : LazySite) (name : String) (args : List Value) :
    site.SparedBy name (firstSeen args) := fun _ _ _ _ _ _ hs => hs

def sevenThenNine : List (Registry × List Value) := [(.initial, [.int 7]), (.initial, [.int 9])]

/-- The law on a site of these two: it may relink and gives the first argument of all, or it
may not and gives zero. -/
theorem a_site_of_zero_gives_the_first_argument :
    ∃ made st', (make zero ⟨some "links", firstSeen⟩).exec (.initial []) = (.ok made, st') ∧
      (serve (made.withRelink true).invoke sevenThenNine st'.run).1 = [some (.int 7), some (.int 7)] ∧
      (serve (made.withRelink true).invoke sevenThenNine st'.run).2.count "links" = 1 ∧
      (serve (made.withRelink false).invoke sevenThenNine st'.run).1 = [some (.int 0), some (.int 0)] ∧
      (serve (made.withRelink false).invoke sevenThenNine st'.run).2.count "links" = 0 := by
  obtain ⟨made, st', hmade⟩ : ∃ made st',
    (make zero ⟨some "links", firstSeen⟩).exec (.initial []) = (.ok made, st') := ⟨_, _, rfl⟩
  obtain ⟨hstart, -, hon⟩ := a_call_site_links_on_its_first_call hmade rfl
    (sparedBy_zero (made.withRelink true) _) (sparedBy_firstSeen _ _)
  obtain ⟨hserve, hsettled⟩ := (hon _ _ hstart).2 rfl .initial [.int 7] [(.initial, [.int 9])]
  obtain ⟨hstart', -, hoff⟩ := a_call_site_links_on_its_first_call hmade rfl
    (sparedBy_zero (made.withRelink false) _) (sparedBy_firstSeen _ _)
  have hgeneric := (hoff _ _ hstart').1 rfl
  refine ⟨made, st', hmade, ?_, (hsettled.stands []).count_eq, ?_, (hgeneric.stands _).count_eq⟩
  · rw [sevenThenNine, hserve]
    rfl
  · rw [hgeneric.serve_eq]
    rfl

end LazySite

end PatternDispatch
