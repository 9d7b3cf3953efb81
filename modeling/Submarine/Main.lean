import Submarine.Json.Yaml
import Submarine.Schema.Definition

open Submarine

def main : IO Unit := IO.print (Json.Yaml.render ResourceDefinition.submarine.toJson)
