import Anneal.Backend.Registry
import Anneal.Settings.Basic

/-!
# Backends from settings

The registry that settings and an environment give, and the changes that a command line makes to
settings before it is built.
-/

namespace Anneal

def ClientSettings.retryPolicy (s : ClientSettings) : RetryPolicy :=
  .new s.maxRetries s.initialMs s.maxMs

def ClientSettings.emptyRegistry (s : ClientSettings) : Registry := .new s.retryPolicy s.model

namespace Settings

def descriptors (s : Settings) : Keyed Descriptor := Keyed.merge Descriptor.presets s.backends

def keyVariables (s : Settings) : List String := s.descriptors.filterMap fun e => e.2.apiKeyEnv

/-- The backends whose keys are there. -/
def registry (s : Settings) (env : String → Option String) : Registry :=
  s.client.emptyRegistry.registerAll env s.descriptors

def withBackend (s : Settings) : Option String → Settings
  | none => s
  | some name => { s with client := { s.client with backend := name } }

def withModel (s : Settings) : Option String → Settings
  | none => s
  | some model =>
    { s with
      client := { s.client with model := model }
      backends := s.backends.map fun e =>
        if e.1 = s.client.backend then (e.1, { e.2 with model := some model }) else e }

/-- The settings with a backend and a model chosen by hand. -/
def choosing (s : Settings) (backend model : Option String) : Settings :=
  (s.withBackend backend).withModel model

end Settings
end Anneal
