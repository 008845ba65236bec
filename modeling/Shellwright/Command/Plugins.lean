import Shellwright.Command.Session
import Shellwright.Wire.Replies
/-!
# The command `plugins`

Lists all plugins, with those that can run and those that are active. The status tells whether any is.
-/

namespace Shellwright.Command

def namesOf : Workspace.Reply → List String
  | .registry (.names names) => names
  | _ => []

def plugins (settings : Settings) (loader : FactoryLoader) : Work Nat := do
  let _ ← openWorkspace settings loader false []
  let available := namesOf (← askRegistry .available)
  let registry := (← get).bench.workspace.registry
  let _ ← call .shutdown
  if registry.plugins.isEmpty then
    notify .warning "No plugins registered; every backend is disabled"
    return 1
  printTable (Console.pluginTable registry.infos available)
  let active := registry.activeNames.length
  if active = 0 then
    notify .warning "No plugin is active"
    return 1
  notify .info s!"{active} of {registry.plugins.length} plugin(s) active"
  return 0

end Shellwright.Command
