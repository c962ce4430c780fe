import TemplateAssist.Registry.Ancestors

/-!
# Full scans

* `World.collectPairs` — the file pairs under the search paths, with notices for what was left out.
* `Work.parsePairs` — the pairs parsed in turn, as long as no clear intervenes.
* `Work.scanAll` — a full scan: pairs collected and parsed, then all components merged.
* `Work.scanFrom` — a scan that was asked for when `observed` scans were complete; it is left out when
  another one was completed meanwhile.
-/

namespace TemplateAssist

namespace World

/-- The file pairs under the search paths, and the world with notices for what was left out. -/
def collectPairs (w : World) : World × List FilePair :=
  let (missing, found) := w.disk.collect w.options.searchPaths w.options.sourceExtension
    w.options.templateExtension
  let w := w.noteAll .warn (List.replicate missing .skippedEntry)
  match found with
  | .ok pairs => (w, pairs)
  | .error _ => (w.note .warn .walkFailed, [])

/-- The world with the source file of every pair remembered under its stem. -/
def noteSources (w : World) (pairs : List FilePair) : World :=
  { w with state := pairs.foldl (fun s p => s.noteSource p.source) w.state }

end World

namespace Work

/-- The pairs parsed in turn, as long as no clear intervenes. -/
def parsePairs (epoch : Nat) : List FilePair → Work Unit
  | [] => pure ()
  | pair :: rest => do
    if (← ask (·.state.epoch)) = epoch then
      let _ ← step (·.parseInEpoch pair.source pair.template epoch)
      parsePairs epoch rest

/-- A full scan in which ancestors are loaded in the order that `order` gives to the cached names. -/
def scanInOrder (order : List Text → List Text) : Work Unit := do
  let epoch ← ask (·.state.epoch)
  let pairs ← step (·.collectPairs)
  alter fun w => if w.state.epoch = epoch then w.noteSources pairs else w
  parsePairs epoch pairs
  let names ← ask (·.state.components.keys)
  if ← flattenAll epoch (order names) then
    alter fun w => { w with generation := w.generation + 1 }

/-- A full scan, in the next order. -/
def scan : Work Unit := do
  let order ← step (·.nextOrder)
  scanInOrder order.arrange

/-- A full scan that was asked for when `observed` scans were complete, and all cached components
after it.  When another scan was completed meanwhile and not cleared since, its result serves. -/
def scanFrom (observed : Nat) : Work (List Component) := do
  let joined ← ask fun w => w.generation ≠ observed && w.state.scanned
  if !joined then scan
  ask (·.state.sortedComponents)

/-- `scan_all`.  A full scan, and all cached components after it. -/
def scanAll : Work (List Component) := do
  scanFrom (← ask (·.generation))

/-- Two full scans asked for together, and the components after each. -/
def scanTwice : Work (List Component × List Component) := do
  let observed ← ask (·.generation)
  let first ← scanFrom observed
  let second ← scanFrom observed
  return (first, second)

/-- `reload`.  The registry cleared and scanned anew. -/
def reload : Work (List Component) := do
  alter (·.clear)
  scanAll

end Work

end TemplateAssist
