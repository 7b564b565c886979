import AxonVex.Machinery.Machine
import Mathlib.Data.List.Nodup
import Mathlib.Logic.Function.Basic
import Mathlib.Tactic.SplitIfs

/-!
# Plugins/PluginManager — what is loaded is shut down, destroyed and closed

    loadPlugin:    loader_(path);  initialize()?  name();  plugins_.emplace(name, …)?
    unloadPlugin:  shutdown();  destroy(instance);  dlclose(handle);  plugins_.erase(it)

Each call of the loader has a number; what it returns and how the plugin then behaves is the **world**
of a run.  For each number the run has a log of the calls that were made for it, and a manager may
hold it.  The managers account for everything (`Accounted`) exactly as long as no exception leaves
`name()`, or a `shutdown()` that has others destroyed before it or its own instance behind it
(`accounted_runs_iff`).
-/

namespace AxonVex

open Machinery

namespace PluginManager

/-- A call of the loader: what it returns, and how the plugin behaves. -/
structure Load where
  throws : Bool := false
  /-- `instance` and `destroy` are set -/
  instance_ : Bool := true
  destroy : Bool := true
  /-- `handle` is set -/
  handle : Bool := true
  error : String := ""
  /-- what `initialize()` returns, or throws -/
  initializes : Option Bool := some true
  /-- what `name()` returns, or throws -/
  name : Option String
  /-- whether the calls of `shutdown()` throw -/
  shutdownThrows : ℕ → Bool := fun _ => false

/-- A call for an instance, or for its handle. -/
inductive Event
  | initializes
  | shutdown
  | destroy
  /-- `dlclose` -/
  | close
  deriving DecidableEq, Repr

/-- The manager hands the instance over to whoever destroys it. -/
def Load.owned (l : Load) : Bool := !l.throws && l.instance_ && l.destroy

/-- A handle comes without an instance that could be destroyed before it. -/
def Load.bare (l : Load) : Bool := !l.throws && l.handle && !(l.instance_ && l.destroy)

/-- The end of a handle. -/
def Load.closes (l : Load) : List Event := if l.handle then [.close] else []

end PluginManager

/-- A manager: its map, from names to the numbers of the loads, and whether it has a loader. -/
structure PluginManager where
  plugins_ : List (String × ℕ) := []
  loader_ : Bool
  lastError_ : String := ""

namespace PluginManager

/-- The loads whose instances are in the map. -/
def ids (m : PluginManager) : List ℕ := m.plugins_.map Prod.snd

/-- The map has the name. -/
def hasName (m : PluginManager) (name : String) : Bool := m.plugins_.any fun p => p.1 == name

/-- A directory scan that is under way. -/
structure Scan where
  manager : ℕ
  /-- the entries that are left: their names, and whether they are regular files -/
  entries : List (String × Bool)
  any : Bool := false
  failures : List String := []

end PluginManager

open PluginManager in
/-- The managers of a run. -/
structure PluginHost where
  world : ℕ → Load
  managers : ℕ → Option PluginManager := fun _ => none
  loads : ℕ := 0
  log : ℕ → List Event := fun _ => []
  scan : Option Scan := none
  /-- `std::terminate` was called -/
  terminated : Bool := false

namespace PluginHost

open PluginManager

variable (s : PluginHost)

/-- A call is made for the load `i`. -/
def note (i : ℕ) (e : Event) : PluginHost :=
  { s with log := Function.update s.log i (s.log i ++ [e]) }

/-- `destroy(instance)`, and `dlclose(handle)`. -/
def dispose (i : ℕ) : PluginHost :=
  { s with log := Function.update s.log i (s.log i ++ .destroy :: (s.world i).closes) }

/-- The next `shutdown()` of the load `i` throws. -/
def shutdownThrows (i : ℕ) : Bool := (s.world i).shutdownThrows ((s.log i).count .shutdown)

/-- `shutdown()`, and if it returns, the rest; and whether it has thrown. -/
def retire (i : ℕ) : PluginHost × Bool :=
  if s.shutdownThrows i then (s.note i .shutdown, true) else ((s.note i .shutdown).dispose i, false)

/-- The loop of `unloadAllPlugins`. -/
def retireAll (s : PluginHost) : List ℕ → PluginHost × Bool
  | [] => (s, false)
  | i :: rest => if (s.retire i).2 then s.retire i else (s.retire i).1.retireAll rest

/-- A manager is, or changes. -/
def put (m : ℕ) (manager : PluginManager) : PluginHost :=
  { s with managers := Function.update s.managers m (some manager) }

/-- A manager is gone. -/
def drop (m : ℕ) : PluginHost := { s with managers := Function.update s.managers m none }

/-- `loadPlugin` after `initialize()` has returned true: what becomes of the map, and what is
returned, or thrown. -/
def register (i : ℕ) (manager : PluginManager) : PluginHost × PluginManager × Option Bool :=
  match (s.world i).name with
  | none => (s, manager, none)
  | some name =>
    if manager.hasName name then
      ((s.retire i).1, { manager with lastError_ := "duplicate plugin name: " ++ name },
        if (s.retire i).2 then none else some false)
    else (s, { manager with plugins_ := manager.plugins_ ++ [(name, i)] }, some true)

/-- `loadPlugin` with what the loader has returned. -/
def loaded (i : ℕ) (manager : PluginManager) : PluginHost × PluginManager × Option Bool :=
  if (s.world i).throws then (s, manager, none)
  else if !((s.world i).instance_ && (s.world i).destroy) then
    (s, { manager with
      lastError_ := if (s.world i).error = "" then "plugin load failed" else (s.world i).error },
      some false)
  else match (s.world i).initializes with
    | some true => (s.note i .initializes).register i manager
    | some false => ((s.note i .initializes).dispose i,
        { manager with lastError_ := "plugin initialize() failed" }, some false)
    | none => ((s.note i .initializes).dispose i,
        { manager with lastError_ := "plugin initialize() threw" }, some false)

/-- The loader is called. -/
def countLoad : PluginHost := { s with loads := s.loads + 1 }

/-- `loadPlugin`. -/
def loadPlugin (manager : PluginManager) : PluginHost × PluginManager × Option Bool :=
  if manager.loader_ then
    s.countLoad.loaded s.loads { manager with lastError_ := "" }
  else (s, { manager with lastError_ := "no loader configured" }, some false)

/-- The entry of a directory is a plugin: it ends in `.so`, and is a regular file. -/
def isPlugin (entry : String × Bool) : Bool :=
  decide (3 < entry.1.length) && entry.1.endsWith ".so" && entry.2

/-- A step of a directory scan: the next entry, or its end. -/
def stepScan (scan : Scan) (manager : PluginManager) : PluginHost :=
  match scan.entries with
  | [] =>
    { s.put scan.manager { manager with
        lastError_ := if scan.failures = [] then manager.lastError_
          else String.intercalate "; " scan.failures } with
      scan := none }
  | entry :: rest =>
    if isPlugin entry then
      let r := s.loadPlugin manager
      { r.1.put scan.manager r.2.1 with
        scan := r.2.2.map fun ok =>
          { scan with
            entries := rest
            any := scan.any || ok
            failures := if ok then scan.failures
              else scan.failures ++ [entry.1 ++ ": " ++ r.2.1.lastError_] } }
    else { s with scan := some { scan with entries := rest } }

/-- `unloadPlugin`. -/
def unloadPlugin (m : ℕ) (manager : PluginManager) (name : String) : PluginHost :=
  match manager.plugins_.find? fun p => p.1 == name with
  | none => s
  | some p =>
    if (s.retire p.2).2 then (s.retire p.2).1
    else (s.retire p.2).1.put m { manager with
      plugins_ := manager.plugins_.eraseP fun q => q.1 == name }

/-- `unloadAllPlugins`. -/
def unloadAllPlugins (m : ℕ) (manager : PluginManager) : PluginHost :=
  if (s.retireAll manager.ids).2 then (s.retireAll manager.ids).1
  else (s.retireAll manager.ids).1.put m { manager with plugins_ := [] }

/-- What a move leaves of a manager. -/
def movedFrom : PluginManager := { loader_ := false }

/-- The move assignment of two managers. -/
def moveAssign (source target : ℕ) (from_ manager : PluginManager) : PluginHost :=
  if (s.retireAll manager.ids).2 then (s.retireAll manager.ids).1
  else ((s.retireAll manager.ids).1.put source movedFrom).put target from_

/-- The destructor; it must not throw. -/
def destruct (m : ℕ) (manager : PluginManager) : PluginHost :=
  { (s.retireAll manager.ids).1.drop m with terminated := (s.retireAll manager.ids).2 }

/-- A step of a run. -/
inductive Label
  | construct (m : ℕ) (loader : Bool)
  | loadPlugin (m : ℕ)
  /-- the entries of the directory, or why it cannot be opened -/
  | loadPluginsFromDirectory (m : ℕ) (entries : Except String (List (String × Bool)))
  /-- the next step of a directory scan -/
  | scan
  /-- the order of the map is not specified: it is now another one -/
  | reorder (m : ℕ) (plugins : List (String × ℕ))
  | setLoader (m : ℕ) (loader : Bool)
  | unloadPlugin (m : ℕ) (name : String)
  | unloadAllPlugins (m : ℕ)
  | moveConstruct (source target : ℕ)
  | moveAssign (source target : ℕ)
  | destruct (m : ℕ)

/-- `loadPluginsFromDirectory` begins. -/
def beginScan (m : ℕ) (manager : PluginManager) (entries : Except String (List (String × Bool))) :
    PluginHost :=
  if manager.loader_ then match entries with
    | .error reason => s.put m { manager with lastError_ := reason }
    | .ok entries =>
      { s.put m { manager with lastError_ := "" } with
        scan := some { manager := m, entries := entries } }
  else s.put m { manager with lastError_ := "no loader configured" }

/-- The step with this label, outside a directory scan. -/
def call : Label → Option PluginHost
  | .construct m loader =>
    if (s.managers m).isNone then some (s.put m { loader_ := loader }) else none
  | .loadPlugin m => (s.managers m).map fun manager =>
    (s.loadPlugin manager).1.put m (s.loadPlugin manager).2.1
  | .loadPluginsFromDirectory m entries => (s.managers m).map fun manager =>
    s.beginScan m manager entries
  | .scan => none
  | .reorder m plugins => (s.managers m).bind fun manager =>
    if plugins.isPerm manager.plugins_ then some (s.put m { manager with plugins_ := plugins })
    else none
  | .setLoader m loader => (s.managers m).map fun manager =>
    s.put m { manager with loader_ := loader }
  | .unloadPlugin m name => (s.managers m).map fun manager => s.unloadPlugin m manager name
  | .unloadAllPlugins m => (s.managers m).map fun manager => s.unloadAllPlugins m manager
  | .moveConstruct source target =>
    if (s.managers target).isNone then
      (s.managers source).map fun from_ => (s.put source movedFrom).put target from_
    else none
  | .moveAssign source target =>
    if source = target then some s
    else (s.managers source).bind fun from_ => (s.managers target).map fun manager =>
      s.moveAssign source target from_ manager
  | .destruct m => (s.managers m).map fun manager => s.destruct m manager

/-- The step with this label. -/
def step (a : Label) : Option PluginHost :=
  if s.terminated then none
  else match s.scan with
    | none => s.call a
    | some scan => match a with
      | .scan => (s.managers scan.manager).map fun manager => s.stepScan scan manager
      | _ => none

/-- Hosts of any world, from the start on. -/
def host : Machine PluginHost Label where
  init s := s = { world := s.world }
  step := step

end PluginHost

end AxonVex
