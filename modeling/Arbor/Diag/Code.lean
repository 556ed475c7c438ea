import Arbor.Text

/-! Diagnostic codes: a number whose range says which part of the program objects. -/

namespace Arbor.Diag

structure Code where
  number : UInt16
deriving DecidableEq

namespace Code

def unknown : Code := ⟨0⟩
def semanticInfo : Code := ⟨3000⟩
def semantic : Code := ⟨3001⟩
def redefinition : Code := ⟨3002⟩
def unresolvedSymbol : Code := ⟨3005⟩
def unresolvedType : Code := ⟨3006⟩
def typeMismatch : Code := ⟨3010⟩
def voidBinding : Code := ⟨3011⟩
def notAStruct : Code := ⟨3012⟩
def duplicateMember : Code := ⟨3013⟩
def memberWithoutType : Code := ⟨3014⟩
def returnMismatch : Code := ⟨3015⟩
def notCallable : Code := ⟨3016⟩
def argumentCount : Code := ⟨3017⟩
def breakOutsideLoop : Code := ⟨3020⟩
def continueOutsideLoop : Code := ⟨3021⟩
def noFunction : Code := ⟨3022⟩
def noActiveBlock : Code := ⟨3023⟩
def notAddressable : Code := ⟨3024⟩
def moduleInfo : Code := ⟨4000⟩
def moduleNotFound : Code := ⟨4001⟩
def duplicateDependency : Code := ⟨4002⟩
def importCollision : Code := ⟨4003⟩
def duplicateModule : Code := ⟨4004⟩
def buildFailed : Code := ⟨4005⟩
def dependencyFailed : Code := ⟨4006⟩
def backendInfo : Code := ⟨5000⟩
def backend : Code := ⟨5001⟩
def verification : Code := ⟨5002⟩
def execution : Code := ⟨5003⟩
def emission : Code := ⟨5004⟩
def noEntry : Code := ⟨5005⟩
def projectInfo : Code := ⟨6000⟩
def manifest : Code := ⟨6001⟩
def loadFile : Code := ⟨6002⟩
def decodeTree : Code := ⟨6003⟩
def importCycle : Code := ⟨6004⟩
def unresolvedImport : Code := ⟨6005⟩
def duplicateName : Code := ⟨6006⟩
def noSources : Code := ⟨6007⟩

def family? (c : Code) : Option Text :=
  if 3000 ≤ c.number && c.number < 4000 then some "SEM"
  else if 4000 ≤ c.number && c.number < 5000 then some "MOD"
  else if 5000 ≤ c.number && c.number < 6000 then some "BCK"
  else if 6000 ≤ c.number && c.number < 7000 then some "PRJ"
  else none

def id (c : Code) : Text :=
  match c.family? with
  | some family => family ++ Text.ofNat c.number.toNat
  | none => "E0000"

def titles : List (Code × String) :=
  [(unknown, "Unknown error"),
   (semanticInfo, "Semantic information"),
   (semantic, "Semantic error"),
   (redefinition, "Symbol already defined in this scope"),
   (unresolvedSymbol, "Unresolved symbol"),
   (unresolvedType, "Unresolved type"),
   (typeMismatch, "Type mismatch"),
   (voidBinding, "Cannot bind a void value"),
   (notAStruct, "Type is not a struct"),
   (duplicateMember, "Duplicate struct member"),
   (memberWithoutType, "Struct member needs a type or a value"),
   (returnMismatch, "Return does not match the function type"),
   (notCallable, "Value is not callable"),
   (argumentCount, "Wrong number of arguments"),
   (breakOutsideLoop, "break outside of a loop"),
   (continueOutsideLoop, "continue outside of a loop"),
   (noFunction, "Statement outside of a function"),
   (noActiveBlock, "No active block"),
   (notAddressable, "Value is not addressable"),
   (moduleInfo, "Module information"),
   (moduleNotFound, "Module not found"),
   (duplicateDependency, "Module already used"),
   (importCollision, "Imported symbol collides with a visible symbol"),
   (duplicateModule, "Module already loaded"),
   (buildFailed, "Module build failed"),
   (dependencyFailed, "Dependency failed to build"),
   (backendInfo, "Backend information"),
   (backend, "Backend error"),
   (verification, "Backend verification failed"),
   (execution, "JIT execution failed"),
   (emission, "Ahead-of-time emission failed"),
   (noEntry, "No entry function"),
   (projectInfo, "Project information"),
   (manifest, "Invalid project manifest"),
   (loadFile, "Cannot load file"),
   (decodeTree, "Cannot decode AST"),
   (importCycle, "Import cycle"),
   (unresolvedImport, "Unresolved import"),
   (duplicateName, "Two sources declare the same module"),
   (noSources, "No sources found")]

def title (c : Code) : Text := (titles.lookup c).getD "Unknown error"

def describe (c : Code) : Text := "[" ++ c.id ++ "]: " ++ c.title

end Code

end Arbor.Diag
