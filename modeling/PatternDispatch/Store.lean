-- The store: the classes, the settings once they are fixed, the carriers made
-- so far, and what runs leave behind. Everything that is built is built over a
-- store; what a failed request did to the store before it failed stays done.
import PatternDispatch.Carrier.Shape
import PatternDispatch.Handle
import PatternDispatch.Settings

namespace PatternDispatch

/-! ## Carriers as they are kept -/

/-- Constructor and accessors of one shape, in canonical order and stored types. -/
structure CanonicalCarrier where
  shape : Shape
  /-- The class of these carriers; carriers in one row have none of their own. -/
  cls : Option ClassId
  constructor : Handle
  accessors : List Handle

/-- Constructor and accessors for a list of types, in declared order. -/
structure TypedCarrier where
  types : List Ty
  shape : Shape
  constructor : Handle
  accessors : List Handle

/-! ## The store -/

structure Store where
  registry : Registry
  /-- Fixed by the first use. -/
  settings : Option Settings
  environment : List (String × String)
  /-- The carriers that have a class of their own. -/
  shapes : List (Shape × CanonicalCarrier)
  typed : List (List Ty × TypedCarrier)
  run : RunState

namespace Store

/-- A store with the well-known classes and nothing else. -/
def initial (environment : List (String × String)) : Store :=
  ⟨.initial, none, environment, [], [], .initial⟩

/-- What the environment asks for. -/
def environmentSettings (s : Store) : Settings := .ofVariables fun name => List.lookup name s.environment

def specializedCount (s : Store) : Nat := s.shapes.length

end Store

abbrev Build := ExceptT BuildError (StateM Store)

namespace Build

variable {α β : Type}

/-- What comes out of building over this store. -/
def exec (x : Build α) (s : Store) : Except BuildError α × Store := x s

def ofExcept : Except BuildError α → Build α
  | .ok a => pure a
  | .error e => throw e

def registry : Build Registry := return (← get).registry

def define (d : ClassDef) : Build ClassId :=
  modifyGet fun s => let (c, registry) := s.registry.define d; (c, { s with registry })

/-- The settings. The first use fixes them to what the environment asks for. -/
def settings : Build Settings :=
  modifyGet fun s =>
    let settings := s.settings.getD s.environmentSettings
    (settings, { s with settings := some settings })

/-- Fix the settings. Once they are fixed nothing changes, and the answer is false. -/
def install (settings : Settings) : Build Bool :=
  modifyGet fun s =>
    match s.settings with
    | some _ => (false, s)
    | none => (true, { s with settings := some settings })

/-- Run over the classes as they stand; `none` is a run without a match. -/
def run (x : Run α) : Build (Option α) :=
  modifyGet fun s => let (a, run) := x.exec s.registry s.run; (a, { s with run })

def freshId : Build Nat :=
  modifyGet fun s => (s.run.nextId, { s with run := { s.run with nextId := s.run.nextId + 1 } })

/-- A hidden value of the class, equal to itself only. -/
def token (c : ClassId) : Build Value := return .token c (← freshId)

def handle (sig : Signature) (body : Nat → Body) : Build Handle := return ⟨sig, body (← freshId)⟩

def unary (param ret : Ty) (f : Value → Run Value) : Build Handle := handle (.unary param ret) (Body.unary · f)

/-! ## What comes out -/

@[simp] theorem exec_pure (a : α) (s : Store) : (pure a : Build α).exec s = (.ok a, s) := rfl

@[simp] theorem exec_throw (e : BuildError) (s : Store) : (throw e : Build α).exec s = (.error e, s) := rfl

theorem exec_bind (x : Build α) (f : α → Build β) (s : Store) :
    (x >>= f).exec s =
      match x.exec s with
      | (.ok a, t) => (f a).exec t
      | (.error e, t) => (.error e, t) := by
  simp only [exec, bind, ExceptT.bind, ExceptT.mk, StateT.bind]
  rcases x s with ⟨_ | a, t⟩ <;> rfl

@[simp] theorem exec_ofExcept (a : Except BuildError α) (s : Store) : (ofExcept a).exec s = (a, s) := by
  cases a <;> rfl

@[simp] theorem exec_registry (s : Store) : registry.exec s = (.ok s.registry, s) := rfl

@[simp] theorem exec_define (d : ClassDef) (s : Store) :
    (define d).exec s = (.ok (s.registry.define d).1, { s with registry := (s.registry.define d).2 }) := rfl

@[simp] theorem exec_settings (s : Store) :
    settings.exec s =
      (.ok (s.settings.getD s.environmentSettings),
        { s with settings := some (s.settings.getD s.environmentSettings) }) := rfl

@[simp] theorem exec_run (x : Run α) (s : Store) :
    (run x).exec s = (.ok (x.exec s.registry s.run).1, { s with run := (x.exec s.registry s.run).2 }) := rfl

@[simp] theorem exec_freshId (s : Store) :
    freshId.exec s = (.ok s.run.nextId, { s with run := { s.run with nextId := s.run.nextId + 1 } }) := rfl

@[simp] theorem exec_handle (sig : Signature) (body : Nat → Body) (s : Store) :
    (handle sig body).exec s =
      (.ok ⟨sig, body s.run.nextId⟩, { s with run := { s.run with nextId := s.run.nextId + 1 } }) := rfl

end Build

end PatternDispatch
