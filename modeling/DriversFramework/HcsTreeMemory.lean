import DriversFramework.HcsInside

namespace DriversFramework.Hcs

open ByteCodec

section
variable (align : Bool) (blob : List UInt8) (treeStart length : ℕ)

/-- How the loop of `GenerateCfgTree` ends from a state, without a bound on its rounds. -/
inductive GenerateRuns : (offset : ℕ) → TreePass → HcsRead TreePass → Prop
 | done {offset : ℕ} {pass : TreePass} (hend : length ≤ offset) :
   GenerateRuns offset pass (.ok pass)
 | stop {offset : ℕ} {pass : TreePass} {e : HcsStop} (hend : offset < length)
   (h : parseByteCode align blob treeStart offset pass = .error e) :
   GenerateRuns offset pass (.error e)
 | next {offset eachOffset : ℕ} {pass pass' : TreePass} {r : HcsRead TreePass}
   (hend : offset < length)
   (h : parseByteCode align blob treeStart offset pass = .ok (eachOffset, pass'))
   (hrest : GenerateRuns (offset + eachOffset) pass' r) : GenerateRuns offset pass r

/-- How far one call of `ParseByteCode` moves `treeMem`, also where it fails afterwards. -/
def tokenUse (offset : ℕ) : TreePass → ℕ
 | .measure _ => 0
 | .build tree =>
  match hcsGetNodeOrAttrLength align blob (treeStart + offset),
   hcsGetPrefix align blob (treeStart + offset) with
  | .ok termOffset, .ok type =>
   if type = configNode then sizeofNode
   else if type = configAttr then
    match getParentNode ((termOffset + offset) % 2 ^ 32) tree.stack with
    | none => 0
    | some _ => sizeofAttr
   else 0
  | _, _ => 0

def treeMemUsed : (rounds offset : ℕ) → TreePass → ℕ
 | 0, _, _ => 0
 | rounds + 1, offset, pass =>
  if offset < length then
   tokenUse align blob treeStart offset pass +
    match parseByteCode align blob treeStart offset pass with
    | .ok (eachOffset, pass) => treeMemUsed rounds (offset + eachOffset) pass
    | .error _ => 0
  else 0

end

inductive Block where
 | treeStack
 | treeMem (size : ℕ)
 deriving DecidableEq

def reported {α : Type} : HcsRead α → HcsRead (Option α)
 | .ok a => .ok (some a)
 | .error .failure => .ok none
 | .error .outOfBlob => .error .outOfBlob

def generateCfgTreeCall (align : Bool) (blob : List UInt8) (treeStart length : ℕ) (mem : Bool)
  (pass : TreePass) (heap : List Block) : HcsRead (Option TreePass × List Block) :=
 if !mem then return (none, heap)
 else do
  let heap := Block.treeStack :: heap
  let r ← reported (generateLoop align blob treeStart length length 0 pass)
  return (r, heap.erase Block.treeStack)

structure DecompileEnd where
 ok : Bool
 root : Option CfgTree
 heap : List Block

def builtTree : Option TreePass → Option CfgTree
 | some (.build tree) =>
  match tree.stack.getLast? with
  | none => none
  | some entry => some ⟨tree.nodes, entry.node⟩
 | _ => none

def buildEnd (treeMemLength : ℕ) (heap : List Block) : Option CfgTree → DecompileEnd
 | some tree => ⟨true, some tree, heap⟩
 | none => ⟨false, none, heap.erase (Block.treeMem treeMemLength)⟩

def buildTreeCall (align : Bool) (blob : List UInt8) (offset nodeLength treeMemLength : ℕ)
  (mem : DecompileMem) (heap : List Block) : HcsRead DecompileEnd := do
 let heap := Block.treeMem treeMemLength :: heap
 let (pass, heap) ←
  generateCfgTreeCall align blob offset nodeLength mem.treeStack (.build ⟨[], []⟩) heap
 return buildEnd treeMemLength heap (builtTree pass)

def decompileTreeCall (align : Bool) (blob : List UInt8) (offset nodeLength : ℕ)
  (mem : DecompileMem) (root : Option CfgTree) (heap : List Block) : HcsRead DecompileEnd := do
 let (pass, heap) ←
  generateCfgTreeCall align blob offset nodeLength mem.sizeStack (.measure 0) heap
 match pass with
 | some (.measure memLen) =>
  let treeMemLength := int32OfUint32 memLen
  if treeMemLength ≤ 0 then return ⟨false, root, heap⟩
  else if !mem.treeMem then return ⟨false, root, heap⟩
  else buildTreeCall align blob offset nodeLength treeMemLength.toNat mem heap
 | _ => return ⟨false, root, heap⟩

def hcsDecompileCall (align : Bool) (blob : List UInt8) (offset : ℕ) (mem : DecompileMem)
  (root : Option CfgTree) (heap : List Block) : HcsRead DecompileEnd := do
 match ← reported (hcsGetNodeLength align blob offset) with
 | none => return ⟨false, root, heap⟩
 | some nodeLength =>
  if nodeLength < 0 then return ⟨false, root, heap⟩
  else decompileTreeCall align blob offset nodeLength.toNat mem root heap

def createHcsToTree (gByteAlign : Bool) (blob : List UInt8) (mem : DecompileMem)
  (root : Option CfgTree) (heap : List Block) : HcsRead DecompileEnd :=
 match hcsCheckBlobFormat gByteAlign blob with
 | (false, _) => return ⟨false, root, heap⟩
 | (true, align) => hcsDecompileCall align blob hbcHeaderLength mem root heap

def hcsGetRootNode (gByteAlign : Bool) (blob : List UInt8) (mem : DecompileMem)
  (root : Option CfgTree) (heap : List Block) : HcsRead DecompileEnd :=
 if root = none then createHcsToTree gByteAlign blob mem root heap
 else return ⟨true, root, heap⟩

/-- Both passes over the node at `start` end, and the building pass keeps inside the memory
that was counted. -/
structure PassesEnd (align : Bool) (blob : List UInt8) (start : ℕ) : Prop where
 ends : ∀ (length : ℕ) (pass : TreePass), ∃ r, GenerateRuns align blob start length 0 pass r
 fits : ∀ length memLen : ℕ,
  generateLoop align blob start length length 0 (.measure 0) = .ok (.measure memLen) →
   (treeMemUsed align blob start length length 0 (.build ⟨[], []⟩) : ℤ) ≤ int32OfUint32 memLen

def FailsClean (gByteAlign : Bool) (blob : List UInt8) : Prop :=
 ∀ mem root heap, ∃ e, hcsGetRootNode gByteAlign blob mem root heap = .ok e ∧
  (e.ok = false → e.root = none ∧ e.heap = heap)

/-- What parsing a blob does with its memory, where the blob gets as far. -/
def ParsesWithin (gByteAlign : Bool) (blob : List UInt8) : Prop :=
 (∀ align, hcsCheckBlobFormat gByteAlign blob = (true, align) →
  PassesEnd align blob hbcHeaderLength) ∧ FailsClean gByteAlign blob

section
variable {align : Bool} {blob : List UInt8} {start length : ℕ}

variable {offset pos size : ℕ}

theorem token_of_parseByteCode {eachOffset : ℕ} {pass pass' : TreePass}
  (h : parseByteCode align blob start offset pass = .ok (eachOffset, pass')) :
  ∃ token, TokenAt align blob (start + offset) (some token) ∧ token.size = eachOffset ∧
   parseToken align blob start offset token pass = .ok pass' := by
 have inside : parseByteCode align blob start offset pass ≠ .error .outOfBlob := by
  rw [h]
  exact fun out => by cases out
 obtain ⟨r, htoken⟩ := tokenAt_of_parseByteCode inside
 cases r with
 | none =>
  rw [parseByteCode_unknown pass htoken] at h
  cases h
 | some token =>
  rw [parseByteCode_of_token pass htoken] at h
  cases hparsed : parseToken align blob start offset token pass with
  | error e =>
   rw [hparsed] at h
   cases h
  | ok next =>
   rw [hparsed] at h
   cases h
   exact ⟨token, htoken, rfl, hparsed⟩

theorem generateRuns_loop {rounds offset : ℕ} (pass : TreePass)
  (hrounds : length ≤ offset + rounds) :
  GenerateRuns align blob start length offset pass
   (generateLoop align blob start length rounds offset pass) := by
 induction rounds generalizing offset pass with
 | zero => exact .done hrounds
 | succ rounds ih =>
  rw [generateLoop]
  split_ifs with hend
  · cases hparse : parseByteCode align blob start offset pass with
    | error e => exact .stop hend hparse
    | ok p =>
     obtain ⟨eachOffset, pass'⟩ := p
     obtain ⟨token, htoken, rfl, -⟩ := token_of_parseByteCode hparse
     have pos := htoken.size_pos
     exact .next hend hparse (ih pass' (by omega))
  · exact .done (not_lt.mp hend)

theorem nameAt_pos (h : NameAt align blob pos size) : 0 < size := by
 rw [h.2, hcsAlignedString]
 have := le_align4 ((cString (blob.drop pos)).length + 1)
 split_ifs <;> omega

theorem nameAt_end (h : NameAt align blob pos size) :
  pos + size ≤ blob.length + 3 := by
 obtain ⟨i, hi⟩ := List.mem_iff_getElem?.mp h.1
 have terminator := cString_length_le hi
 have inside := (List.getElem?_eq_some_iff.mp hi).1
 rw [List.length_drop] at inside
 have aligned := align4_lt ((cString (blob.drop pos)).length + 1)
 rw [h.2, hcsAlignedString]
 split_ifs <;> omega

theorem typeAt_end {type : ℕ} (h : TypeAt align blob pos type) :
  pos + hcsPrefixLength align ≤ blob.length := h.1

theorem prefixLength_bounds (align : Bool) :
  1 ≤ hcsPrefixLength align ∧ hcsPrefixLength align ≤ 4 := by
 cases align <;> decide

theorem fixedWidth_bounds {type width : ℕ} (h : fixedWidth align type = some width) :
  1 ≤ width ∧ width ≤ 8 := by
 unfold fixedWidth at h
 split_ifs at h <;> cases h <;> cases align <;> decide

theorem elemSize_bounds (h : ElemSize align blob pos (some size)) :
  2 ≤ size ∧ pos + size ≤ blob.length + 8 := by
 have one := prefixLength_bounds align
 cases h with
 | fixed htype hwidth =>
  have inside := typeAt_end htype
  have width := fixedWidth_bounds hwidth
  omega
 | string htype hname =>
  have positive := nameAt_pos hname
  have inside := nameAt_end hname
  omega

theorem elemsEnd_bounds {count arrayLen size : ℕ}
  (h : ElemsEnd align blob pos count arrayLen (some size))
  (hpos : pos + arrayLen ≤ blob.length + 8) :
  arrayLen ≤ size ∧ pos + size ≤ blob.length + 8 := by
 generalize hr : some size = r at h
 induction h with
 | nil arrayLen =>
  cases hr
  exact ⟨le_rfl, hpos⟩
 | @cons count arrayLen elem r helem hrest ih =>
  have bounds := elemSize_bounds helem
  have rest := ih (by omega) hr
  omega
 | unknown helem => cases hr

theorem valueSize_bounds (h : ValueSize align blob pos (some size)) :
  2 ≤ size ∧ pos + size ≤ blob.length + 8 := by
 cases h with
 | elem htype harray helem => exact elemSize_bounds helem
 | array htype hcount helems =>
  have one := prefixLength_bounds align
  have word : 2 ≤ hcsWordLength align := by cases align <;> decide
  have inside := hcount.1
  have bounds := elemsEnd_bounds helems (by omega)
  omega

theorem token_bounds {token : Token} (h : TokenAt align blob pos (some token)) :
  tokenMemory token ≤ 8 * token.size ∧ pos + token.size ≤ blob.length + 8 := by
 have one := prefixLength_bounds align
 generalize hr : some token = r at h
 cases h with
 | @node size htype hname =>
  cases hr
  have positive := nameAt_pos hname
  have inside := nameAt_end hname
  change 48 ≤ 8 * (size + hcsPrefixLength align + 4) ∧
   pos + (size + hcsPrefixLength align + 4) ≤ blob.length + 8
  omega
 | @attr size r htype hname hvalue =>
  cases r with
  | none => cases hr
  | some data =>
   cases hr
   have positive := nameAt_pos hname
   have bounds := valueSize_bounds hvalue
   change 24 ≤ 8 * (data + (hcsPrefixLength align + size)) ∧
    pos + (data + (hcsPrefixLength align + size)) ≤ blob.length + 8
   omega
 | unknown htype hnode hattr => cases hr

theorem walk_memory {tokens : List Token} {complete : Bool}
  (h : Walk align blob start length offset tokens complete) :
  (tokens.map tokenMemory).sum ≤ 8 * (blob.length + 8 - (start + offset)) := by
 induction h with
 | done hend => exact Nat.zero_le _
 | unknown hend htoken => exact Nat.zero_le _
 | @step offset token tokens complete hend htoken hrest ih =>
  obtain ⟨size, within⟩ := token_bounds htoken
  rw [List.map_cons, List.sum_cons]
  omega

theorem tokenUse_le {token : Token}
  (htoken : TokenAt align blob (start + offset) (some token)) (pass : TreePass) :
  tokenUse align blob start offset pass ≤ tokenMemory token := by
 cases pass with
 | measure memLen => exact Nat.zero_le _
 | build tree =>
  have type := prefix_of_typeAt htoken.typeAt
  rw [tokenUse, type, token_of_tokenAt htoken, tokenMemory]
  cases token.isNode with
  | true => exact le_rfl
  | false =>
   simp only [Option.map_some, sized, Bool.false_eq_true, if_false, configAttr, configNode,
    Nat.reduceEqDiff, if_true]
   cases getParentNode ((token.size + offset) % 2 ^ 32) tree.stack with
   | none => exact Nat.zero_le _
   | some entry => exact le_rfl

theorem treeMemUsed_le {rounds offset : ℕ} {tokens : List Token} {complete : Bool}
  (h : Walk align blob start length offset tokens complete) (hcomplete : complete = true)
  (pass : TreePass) :
  treeMemUsed align blob start length rounds offset pass ≤ (tokens.map tokenMemory).sum := by
 induction h generalizing rounds pass with
 | @done offset hend =>
  cases rounds with
  | zero => exact le_rfl
  | succ rounds =>
   rw [treeMemUsed, if_neg (not_lt.mpr hend)]
   exact le_rfl
 | unknown hend htoken => cases hcomplete
 | @step offset token tokens complete hend htoken hrest ih =>
  cases rounds with
  | zero => exact Nat.zero_le _
  | succ rounds =>
   rw [treeMemUsed, if_pos hend, List.map_cons, List.sum_cons]
   refine Nat.add_le_add (tokenUse_le htoken pass) ?_
   rw [parseByteCode_of_token pass htoken]
   cases parseToken align blob start offset token pass with
   | error e => exact Nat.zero_le _
   | ok next => exact ih hcomplete next

theorem measured_small {memLen : ℕ} (hlimit : blob.length ≤ hbcBlobMaxLength)
  (h : generateLoop align blob start length length 0 (.measure 0) = .ok (.measure memLen)) :
  memLen < 2 ^ 31 := by
 have enough : length ≤ 0 + length := (Nat.zero_add length).ge
 have inside : generateLoop align blob start length length 0 (.measure 0) ≠ .error .outOfBlob := by
  rw [h]
  exact fun out => by cases out
 obtain ⟨tokens, complete, walk⟩ := walk_of_measure enough inside
 rw [measure_of_walk walk enough] at h
 cases complete with
 | false => cases h
 | true =>
  have small := walk_memory walk
  have limit : hbcBlobMaxLength = 1024 * 1024 * 10 := rfl
  obtain rfl : 0 + (tokens.map tokenMemory).sum = memLen := by simpa using h
  omega

theorem passesEnd (hlimit : blob.length ≤ hbcBlobMaxLength) : PassesEnd align blob start := by
 have enough {length : ℕ} : length ≤ 0 + length := (Nat.zero_add length).ge
 refine ⟨fun length pass => ⟨_, generateRuns_loop pass enough⟩, ?_⟩
 intro length memLen hmeasure
 rw [int32OfUint32_of_lt (measured_small hlimit hmeasure)]
 have inside : generateLoop align blob start length length 0 (.measure 0) ≠ .error .outOfBlob := by
  rw [hmeasure]
  exact fun out => by cases out
 obtain ⟨tokens, complete, walk⟩ := walk_of_measure enough inside
 rw [measure_of_walk walk enough] at hmeasure
 cases complete with
 | false => cases hmeasure
 | true =>
  have used : treeMemUsed align blob start length length 0 (.build ⟨[], []⟩) ≤
    (tokens.map tokenMemory).sum := treeMemUsed_le walk rfl _
  obtain rfl : 0 + (tokens.map tokenMemory).sum = memLen := by simpa using hmeasure
  omega

/-- A call of `HcsDecompile` beside its result: a failure leaves no block behind, and no root
where there was none. -/
def CallEnds (root : Option CfgTree) (heap : List Block) (result : HcsRead CfgTree)
  (call : HcsRead DecompileEnd) : Prop :=
 (∃ tree e, result = .ok tree ∧ call = .ok e ∧ e.ok = true) ∨
 (∃ e, result = .error .failure ∧ call = .ok e ∧ e.ok = false ∧ (root = none → e.root = none) ∧
  e.heap = heap) ∨
 (result = .error .outOfBlob ∧ call = .error .outOfBlob)

theorem callEnds_failed {root : Option CfgTree} {heap : List Block} :
  CallEnds root heap (.error .failure) (.ok ⟨false, root, heap⟩) :=
 Or.inr (Or.inl ⟨_, rfl, rfl, rfl, id, rfl⟩)

theorem generateCall_eq {pass : TreePass} {heap : List Block} :
  generateCfgTreeCall align blob start length true pass heap =
   (reported (generateCfgTree align blob start length true pass)).map fun r => (r, heap) := by
 change (do
  let r ← reported (generateLoop align blob start length length 0 pass)
  return (r, (Block.treeStack :: heap).erase Block.treeStack) : HcsRead _) = _
 rw [List.erase_cons_head]
 change _ = (reported (generateLoop align blob start length length 0 pass)).map _
 cases reported (generateLoop align blob start length length 0 pass) <;> rfl

theorem buildCall_ends (treeMemLength : ℕ) (mem : DecompileMem) (root : Option CfgTree)
  (heap : List Block) :
  CallEnds root heap
   (generateCfgTree align blob start length mem.treeStack (.build ⟨[], []⟩) >>= rootOf)
   (buildTreeCall align blob start length treeMemLength mem heap) := by
 have failed : CallEnds root heap (.error .failure)
   (.ok ⟨false, none, (Block.treeMem treeMemLength :: heap).erase (.treeMem treeMemLength)⟩) := by
  rw [List.erase_cons_head]
  exact Or.inr (Or.inl ⟨_, rfl, rfl, rfl, fun _ => rfl, rfl⟩)
 rw [buildTreeCall]
 cases mem.treeStack with
 | false => exact failed
 | true =>
  rw [generateCall_eq]
  cases generateCfgTree align blob start length true (.build ⟨[], []⟩) with
  | error stop =>
   cases stop with
   | failure => exact failed
   | outOfBlob => exact Or.inr (Or.inr ⟨rfl, rfl⟩)
  | ok pass =>
   cases pass with
   | measure memLen => exact failed
   | build tree =>
    change CallEnds root heap (rootOf (.build tree)) (.ok (buildEnd treeMemLength
     (Block.treeMem treeMemLength :: heap) (builtTree (some (.build tree)))))
    rw [rootOf, builtTree]
    cases tree.stack.getLast? with
    | none => exact failed
    | some entry => exact Or.inl ⟨_, _, rfl, rfl, rfl⟩

theorem decompileTreeCall_ends (hlimit : blob.length ≤ hbcBlobMaxLength) (mem : DecompileMem)
  (root : Option CfgTree) (heap : List Block) :
  CallEnds root heap (decompileTree align blob start length mem)
   (decompileTreeCall align blob start length mem root heap) := by
 rw [decompileTree, decompileTreeCall]
 cases mem.sizeStack with
 | false => exact callEnds_failed
 | true =>
  rw [generateCall_eq]
  cases hmeasure : generateCfgTree align blob start length true (.measure 0) with
  | error stop =>
   cases stop with
   | failure => exact callEnds_failed
   | outOfBlob => exact Or.inr (Or.inr ⟨rfl, rfl⟩)
  | ok pass =>
   cases pass with
   | build tree => exact callEnds_failed
   | measure memLen =>
    have exact' := int32OfUint32_of_lt (measured_small hlimit hmeasure)
    change CallEnds root heap
     (if memLen = 0 then .error .failure
      else if !mem.treeMem then .error .failure
      else
       generateCfgTree align blob start length mem.treeStack (.build ⟨[], []⟩) >>= rootOf)
     (if int32OfUint32 memLen ≤ 0 then .ok ⟨false, root, heap⟩
      else if !mem.treeMem then .ok ⟨false, root, heap⟩
      else buildTreeCall align blob start length (int32OfUint32 memLen).toNat mem heap)
    rw [exact']
    have zero : (memLen : ℤ) ≤ 0 ↔ memLen = 0 := by omega
    simp only [zero]
    split_ifs
    · exact callEnds_failed
    · exact callEnds_failed
    · exact buildCall_ends _ mem root heap

theorem decompileCall_ends (hlimit : blob.length ≤ hbcBlobMaxLength) (mem : DecompileMem)
  (root : Option CfgTree) (heap : List Block) :
  CallEnds root heap (hcsDecompile align blob start mem)
   (hcsDecompileCall align blob start mem root heap) := by
 rw [hcsDecompile, hcsDecompileCall]
 cases hcsGetNodeLength align blob start with
 | error stop =>
  cases stop with
  | failure => exact callEnds_failed
  | outOfBlob => exact Or.inr (Or.inr ⟨rfl, rfl⟩)
 | ok nodeLength =>
  change CallEnds root heap
   (if nodeLength < 0 then .error .failure
    else decompileTree align blob start nodeLength.toNat mem)
   (if nodeLength < 0 then .ok ⟨false, root, heap⟩
    else decompileTreeCall align blob start nodeLength.toNat mem root heap)
  split_ifs
  · exact callEnds_failed
  · exact decompileTreeCall_ends hlimit mem root heap

end

theorem checkBlob_limit {gByteAlign align : Bool} {blob : List UInt8}
  (h : hcsCheckBlobFormat gByteAlign blob = (true, align)) : blob.length ≤ hbcBlobMaxLength := by
 unfold hcsCheckBlobFormat at h
 dsimp only at h
 split_ifs at h with outside magic
 · cases h
 · cases h
 · omega

/-- Parsing keeps within its memory and fails clean exactly where the objects of a blob that is
accepted are readable. -/
theorem parsesWithin_iff_readable (gByteAlign : Bool) (blob : List UInt8) :
    ParsesWithin gByteAlign blob ↔
      ∀ align, hcsCheckBlobFormat gByteAlign blob = (true, align) →
        Readable align blob hbcHeaderLength := by
  constructor
  · rintro ⟨-, clean⟩ align hcheck
    refine decompile_inside_iff.mp fun mem out => ?_
    obtain ⟨e, he, -⟩ := clean mem none []
    rw [hcsGetRootNode, if_pos rfl, createHcsToTree, hcheck] at he
    rcases decompileCall_ends (checkBlob_limit hcheck) mem none [] with
      ⟨tree, _, result, -⟩ | ⟨_, result, -⟩ | ⟨-, call⟩
    · rw [out] at result
      cases result
    · rw [out] at result
      cases result
    · cases call.symm.trans he
  · intro readable
    refine ⟨fun align hcheck => passesEnd (checkBlob_limit hcheck), ?_⟩
    intro mem root heap
    by_cases hroot : root = none
    · rw [hcsGetRootNode, if_pos hroot, createHcsToTree]
      cases hcheck : hcsCheckBlobFormat gByteAlign blob with
      | mk accepted align =>
        cases accepted with
        | false => exact ⟨_, rfl, fun _ => ⟨hroot, rfl⟩⟩
        | true =>
          have inside := decompile_inside_iff.mpr (readable align hcheck) mem
          rcases decompileCall_ends (checkBlob_limit hcheck) mem root heap with
            ⟨tree, e, -, call, ok⟩ | ⟨e, -, call, -, null, kept⟩ | ⟨result, -⟩
          · exact ⟨e, call, fun failed => Bool.noConfusion (ok.symm.trans failed)⟩
          · exact ⟨e, call, fun _ => ⟨null hroot, kept⟩⟩
          · exact absurd result inside
    · rw [hcsGetRootNode, if_neg hroot]
      exact ⟨_, rfl, fun failed => Bool.noConfusion failed⟩

def oversizedRoot : List UInt8 :=
 leBytes 4 hbcMagicNumber ++ List.replicate 12 0 ++ leBytes 4 10 ++
  [1, 0x72, 0x6F, 0x6F, 0x74, 0, 100, 0, 0, 0]

theorem oversizedRoot_leaves_blob :
    ¬ ∀ (gByteAlign : Bool) (blob : List UInt8), ParsesWithin gByteAlign blob := by
  intro h
  obtain ⟨e, he, -⟩ := (h false oversizedRoot).2 ⟨true, true, true⟩ none []
  have left : (hcsGetRootNode false oversizedRoot ⟨true, true, true⟩ none []).isOk = false := by
    decide +kernel
  rw [he] at left
  cases left

end DriversFramework.Hcs
