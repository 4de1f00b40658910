-- Call sites that link lazily. A site starts on a generic handle. Its first
-- call asks the linker for a better one, and from then on, that call included,
-- the site runs what was published.
import PatternDispatch.Store

namespace PatternDispatch

/-- How a site gets its linked handle from the arguments of the first call. -/
structure Linker where
  /-- The name under which its runs are counted. -/
  counter : Option String
  choose : List Value → Handle

structure LazySite where
  generic : Handle
  linker : Linker
  /-- Where the run state keeps the arguments of the first call. -/
  cell : Nat
  relink : Bool

namespace LazySite

/-- A site that relinks as the settings say. -/
def make (generic : Handle) (linker : Linker) : Build LazySite := do
  let settings ← Build.settings
  let links := (← get).run.links
  modify fun st => { st with run := { st.run with links := links.push none } }
  return ⟨generic, linker, links.size, settings.relink⟩

def withRelink (site : LazySite) (relink : Bool) : LazySite := { site with relink }

def sig (site : LazySite) : Signature := site.generic.sig

def linkedBy (site : LazySite) (s : RunState) : Option (List Value) := s.links[site.cell]?.join

def isLinked (site : LazySite) (s : RunState) : Bool := (site.linkedBy s).isSome

/-- What is published after a first call with these arguments: the handle of the
linker, unless it has another signature. -/
def published (site : LazySite) (args : List Value) : Handle :=
  let candidate := site.linker.choose args
  if candidate.sig = site.generic.sig then candidate else site.generic

/-- The handle of a site that was linked so, or not at all. -/
def standing (site : LazySite) : Option (List Value) → Handle
  | some args => site.published args
  | none => site.generic

/-- The handle that the next call runs if it does not link. -/
def current (site : LazySite) (s : RunState) : Handle := site.standing (site.linkedBy s)

/-- Whether a call runs the linker, given what linked the site before. -/
def linksOn (site : LazySite) (linked : Option (List Value)) : Bool := site.relink && linked.isNone

/-- What links the site from a call on. -/
def linkedAfter (site : LazySite) (linked : Option (List Value)) (args : List Value) : Option (List Value) :=
  if site.linksOn linked then some args else linked

/-- The handle that a call runs. A site that may not relink stays generic. -/
def chosen (site : LazySite) (linked : Option (List Value)) (args : List Value) : Handle :=
  if site.relink then site.standing (site.linkedAfter linked args) else site.generic

def link (site : LazySite) (args : List Value) : Run Unit := do
  if let some name := site.linker.counter then Run.record name
  modify fun s => { s with links := s.links.setIfInBounds site.cell (some args) }

def invoke (site : LazySite) (args : List Value) : Run Value := do
  let linked := site.linkedBy (← get)
  if site.linksOn linked then site.link args
  (site.chosen linked args).invoke args

def toHandle (site : LazySite) : Build Handle := Build.handle site.sig (⟨·, site.invoke⟩)

def describe (r : Registry) (s : RunState) (site : LazySite) : String :=
  "LazyCallSite \x7b signature: " ++ site.sig.describe r ++ ", linked: " ++
    Value.boolText (site.isLinked s) ++ ", relink: " ++ Value.boolText site.relink ++ ", .. \x7d"

end LazySite

end PatternDispatch
