import DriversFramework.HdiParserHalts

/-! `module_parser.cpp` up to `CheckCircularReference`. The order in which an unordered container
is walked over is an input, which may depend on all that the parser has at that time. -/
namespace DriversFramework.HdiParser

open LoopPrograms LoopPrograms.Prog

/-- `File` opens a path for reading and keeps the absolute path of what it opened. -/
structure FileSystem where
 realPath : Name → Option Name
 content : Name → List Char

def FileSystem.openSourceFile (fs : FileSystem) (path : Name) : Option Name :=
 if path.isEmpty then none else fs.realPath path

namespace FileDetail

def getName (d : FileDetail) : Name :=
 let start := (lastIndexOf d.idlFilePath '/').elim 0 (· + 1)
 (lastIndexOfString d.idlFilePath ".idl".toList).elim [] fun last =>
  (d.idlFilePath.take last).drop start

def getFullName (d : FileDetail) : Name := d.packageName ++ ['.'] ++ d.getName

def delImport (d : FileDetail) (packageName : Name) : FileDetail :=
 { d with imports := d.imports.filter (· ≠ packageName) }

def importsToPath (importPkgName : Name) : Name :=
 replaceChar importPkgName '.' '/' ++ ".idl".toList

end FileDetail

abbrev FileDetailMap := List (Name × FileDetail)

/-- The orders in which `GetImports()` and `sourceFiles_` are walked over. -/
structure Walks where
 imports : FileDetailMap → FileDetail → List Name
 files : FileDetailMap → FileDetailMap
 imports_perm : ∀ files d, (imports files d).Perm d.imports
 files_perm : ∀ m, (files m).Perm m

structure ModuleParser where
 sourceFiles : FileDetailMap := []
 compileFiles : List Name := []

abbrev ModuleM := Prog ModuleParser

namespace ModuleParser

def addFile (file : FileDetail) (m : ModuleParser) : ModuleParser :=
 { m with sourceFiles := (file.getFullName, file) ::
   m.sourceFiles.filter fun e => e.1 ≠ file.getFullName }

variable (fs : FileSystem) (options : Options) (walks : Walks)

/-- `Parser::Parse` with a new parser. -/
def parse (sourceFile : Name) : ModuleM (Option FileDetail) :=
 (fs.openSourceFile sourceFile).elim (return none) fun path => do
  let r ← zoom (fun _ => Parser.opened options [] {} [] path (fs.content path)) (fun m _ => m)
   Parser.parseIdlDetail
  return if r.1 then some r.2 else none

/-- The loop of `ParserAllImportsRecursion` over the imports that are left. -/
def importLoop (recursion : FileDetail → ModuleM Bool) : List Name → ModuleM Bool
 | [] => return true
 | importName :: rest => do
  let known ← read fun m => (m.sourceFiles.lookup importName).isSome
  if known then importLoop recursion rest
  else do
   let file ← parse fs options (FileDetail.importsToPath importName)
   file.elim (return false) fun file => do
    modify (addFile file)
    let ok ← recursion file
    if ok then importLoop recursion rest else return false

def recursionDepth : ℕ → FileDetail → ModuleM Bool
 | 0, _ => never
 | depth + 1, fileInfo => do
  let imports ← read fun m => walks.imports m.sourceFiles fileInfo
  importLoop fs options (recursionDepth depth) imports

instance importLoop_grows (f g : FileDetail → ModuleM Bool) [∀ d, Under (f d) (g d)] :
 ∀ imports, Under (importLoop fs options f imports) (importLoop fs options g imports)
 | [] => under_refl _
 | _ :: rest => by
  have tail := importLoop_grows f g rest
  unfold importLoop
  infer_instance

theorem recursionDepth_grows (fileInfo : FileDetail) : ∀ depth,
 Under (recursionDepth fs options walks depth fileInfo)
  (recursionDepth fs options walks (depth + 1) fileInfo) := by
 intro depth
 induction depth generalizing fileInfo with
 | zero => exact under_never _
 | succ depth ih =>
  unfold recursionDepth
  infer_instance

def parserAllImportsRecursion (fileInfo : FileDetail) : ModuleM Bool :=
 limit (fun depth => recursionDepth fs options walks depth fileInfo)
  (recursionDepth_grows fs options walks fileInfo)

def parserAllImports (rootFilePath : Name) : ModuleM Bool := do
 let fileInfo ← parse fs options rootFilePath
 fileInfo.elim (return false) fun fileInfo => do
  modify (addFile fileInfo)
  parserAllImportsRecursion fs options walks fileInfo

/-- What a round of the loop over `sourceFiles_` does with a file. -/
def released (packageName : Name) (file : FileDetail) : FileDetail :=
 if file.imports.length > 0 then file.delImport packageName else file

/-- The files that the loop over `sourceFiles_` pushes. -/
def freed (packageName : Name) (files : FileDetailMap) : List FileDetail :=
 (files.filter fun e => 0 < e.2.imports.length &&
  (e.2.delImport packageName).imports.length = 0).map fun e => e.2.delImport packageName

/-- A round of the loop of `CheckCircularReference`. A file in the queue has no imports left, so
that nothing changes it any more. -/
def checkRound (fileQueue : List FileDetail) : ModuleM (List FileDetail ⊕ Unit) :=
 step fun m =>
  match fileQueue with
  | [] => (.inr (), m)
  | importFile :: fileQueue =>
   let files := walks.files m.sourceFiles
   (.inl (fileQueue ++ freed importFile.getFullName files),
    { sourceFiles := files.map fun e => (e.1, released importFile.getFullName e.2)
      compileFiles := m.compileFiles ++ [importFile.idlFilePath] })

def checkCircularReference : ModuleM Bool := do
 let files ← read fun m => walks.files m.sourceFiles
 modify fun m => { m with compileFiles := [] }
 loop (checkRound walks) ((files.filter fun e => e.2.imports.length = 0).map Prod.snd)
 read fun m => !decide (m.compileFiles.length < m.sourceFiles.length)

def parserDependencies (sourceFile : Name) : ModuleM Bool := do
 let parsed ← parserAllImports fs options walks sourceFile
 if !parsed then return false else checkCircularReference walks

end ModuleParser
end DriversFramework.HdiParser
