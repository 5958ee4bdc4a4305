import Outbox.Sweeper
import Outbox.Text.Debug

/-! # Deployments

A deployment is a registry with a processor and a sweeper. It is assembled from a configuration, and
fails when a tag that is expected to be consumed has no consumer: at run time such messages would
pass for delivered.
-/

namespace Outbox

structure Deployment (κ : Type) where
  registry : Registry κ
  processor : Processor
  sweeper : Sweeper
  config : Config

/-- Some expected tags have no consumer. -/
structure AssemblyError where
  missing : List MessageType
  deriving DecidableEq

def AssemblyError.message (e : AssemblyError) : String :=
  let quote (tag : MessageType) : String := "MessageType(" ++ Text.debugQuoted tag.tag ++ ")"
  "Missing message types: [" ++ String.intercalate ", " (e.missing.map quote) ++
    "]. These types were expected but have no consumer."

/-- What a deployment is assembled from. -/
structure Blueprint (κ : Type) where
  registry : Registry κ
  config : Config
  /-- Tags that have to have a consumer. -/
  expected : List MessageType

namespace Blueprint

variable {κ : Type}

def empty : Blueprint κ := ⟨.empty, .default, []⟩

def register [Named κ] (b : Blueprint κ) (tag : MessageType) (k : κ) :
    Except RegistryError (Blueprint κ) := do
  return { b with registry := ← b.registry.register tag k }

/-- The last list of expected tags counts. -/
def expect (b : Blueprint κ) (tags : List MessageType) : Blueprint κ := { b with expected := tags }

def build (b : Blueprint κ) : Except AssemblyError (Deployment κ) :=
  match b.registry.missing b.expected with
  | [] => .ok ⟨b.registry, .ofConfig b.config, .ofConfig b.config, b.config⟩
  | missing => .error ⟨missing⟩

end Blueprint

end Outbox
