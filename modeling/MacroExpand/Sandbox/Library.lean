import MacroExpand.Sandbox.Waiting
import MacroExpand.Files

/-!
# The library that expands macros

A program may use what expands it: caches of results that it fills itself, and engines that expand source
texts.  Both give coroutines, so several computations and passes may be under way at once.
-/

set_option autoImplicit false

namespace MacroExpand

namespace Sandbox

/-! ## Caches -/

def selfStore (v : Value) : Eval Nat := do
  match (← unwrap v) with
  | .ref i => return i
  | .scalar _ => return sharedStoreCell

def storeMethods : List Native := [
  .method "MacroCache" "get" "key default=" fun r v a => do
    return (← resultAt? r (← selfStore v) (a.under "key")).getD (a.under "default"),
  .method "MacroCache" "__contains__" "key" fun r v a => do
    return ofBool (← resultAt? r (← selfStore v) (a.under "key")).isSome,
  .method "MacroCache" "__len__" "" fun _ v _ => do
    return ofNat (← storeAt (← selfStore v)).cache.entries.length,
  .method "MacroCache" "put" "key value" fun r v a => do
    let i ← selfStore v
    let key ← keyNumber r i (a.under "key")
    changeStore i fun cache => cache.put key (a.under "value"),
  .method "MacroCache" "get_or_create" "key factory" fun r v a => do
    let key := a.under "key"
    let compute := Script.run (a.under "factory") .done
    alloc (.coroutine "MacroCache.get_or_create"
      (.obtain (← selfStore v) (.fresh (Script.cached (← codeText r key) key compute)))),
  .method "MacroCache" "clear" "" fun _ v _ => do
    changeStore (← selfStore v) fun cache => (cache.clear, nil)]

/-! ## Engines -/

def engineMethods : List Native := [
  .method "MacroEngine" "transform" "source path" fun _ v a => postponed "MacroEngine.transform" do
    let source ← needText "transform() argument 1" (a.under "source")
    let path ← needText "transform() argument 2" (a.under "path")
    match (← core? v) with
    | some (.engine settings store) =>
      alloc (.coroutine "MacroEngine.transform"
        (.transform settings store path (.fresh (Script.expandMacros settings .own source path))))
    | _ => noAttribute v "transform"]

def processSettings : Eval Settings := do
  let m ← get
  let w : World := { files := m.files, environment := m.environment }
  return w.settings.toOption.getD {}

def makeEngine (a : Arguments) : Eval Value := do
  for name in ["settings", "executor", "serializer"] do
    if a.under name ≠ nil then
      raise "NotImplementedError" ("MacroEngine() with " ++ name ++ " is not available")
  let store ← match a.some? 1 "cache" with
    | none => pure sharedStoreCell
    | some v =>
      match (← core? v) with
      | some (.store _) => selfStore v
      | _ => raise "NotImplementedError" "MacroEngine() with another cache is not available"
  alloc (.engine (← processSettings) store)

def libraryMakers : List (String × Maker) := [
  declaredMaker "MacroCache" "" fun _ _ => alloc (.store {}),
  declaredMaker "MacroEngine" "settings= cache= executor= serializer=" fun _ a => makeEngine a]

end Sandbox

end MacroExpand
