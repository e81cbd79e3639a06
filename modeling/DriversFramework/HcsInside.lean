import DriversFramework.HcsBounds

namespace DriversFramework.Hcs

open ByteCodec

section
variable {align : Bool} {blob : List UInt8} {start length : ℕ}

variable {token : Token}

variable (bound : ℕ) (stack : List TreeStack) {pos rounds offset : ℕ}

theorem TokenAt.typeAt (h : TokenAt align blob pos (some token)) :
  TypeAt align blob pos (if token.isNode then configNode else configAttr) := by
 generalize hr : some token = r at h
 cases h with
 | node htype hname =>
  cases hr
  exact htype
 | @attr size r htype hname hvalue =>
  cases r <;> cases hr
  exact htype
 | unknown htype hnode hattr => cases hr

theorem TokenAt.nameAt (h : TokenAt align blob pos (some token)) :
  ∃ size, NameAt align blob (pos + hcsPrefixLength align) size ∧
   (token.isNode = true → token.size = size + hcsPrefixLength align + hcsDwordLength) := by
 generalize hr : some token = r at h
 cases h with
 | node htype hname =>
  cases hr
  exact ⟨_, hname, fun _ => rfl⟩
 | @attr size r htype hname hvalue =>
  cases r <;> cases hr
  exact ⟨_, hname, fun node => Bool.noConfusion node⟩
 | unknown htype hnode hattr => cases hr

theorem TokenAt.size_pos (h : TokenAt align blob pos (some token)) : 0 < token.size := by
 have one : 0 < hcsPrefixLength align := by cases align <;> decide
 generalize hr : some token = r at h
 cases h with
 | node htype hname =>
  cases hr
  change 0 < _ + hcsPrefixLength align + hcsDwordLength
  omega
 | @attr size r htype hname hvalue =>
  cases r <;> cases hr
  change 0 < _ + (hcsPrefixLength align + size)
  omega
 | unknown htype hnode hattr => cases hr

def parseToken (align : Bool) (blob : List UInt8) (start offset : ℕ) (token : Token)
  (pass : TreePass) : HcsRead TreePass :=
 if token.isNode then parseNode align blob start offset token.size pass
 else parseAttr align blob start offset token.size pass

theorem parseByteCode_of_token (pass : TreePass)
  (h : TokenAt align blob (start + offset) (some token)) :
  parseByteCode align blob start offset pass =
   (parseToken align blob start offset token pass).map fun pass => (token.size, pass) := by
 have type := prefix_of_typeAt h.typeAt
 rw [parseByteCode, token_of_tokenAt h]
 change (do
  let type ← hcsGetPrefix align blob (start + offset)
  _ : HcsRead (ℕ × TreePass)) = _
 rw [type, parseToken]
 cases token.isNode <;> rfl

theorem parseByteCode_unknown (pass : TreePass)
  (h : TokenAt align blob (start + offset) none) :
  parseByteCode align blob start offset pass = .error .failure := by
 rw [parseByteCode, token_of_tokenAt h]
 rfl

theorem tokenAt_of_parseByteCode {pass : TreePass}
  (h : parseByteCode align blob start offset pass ≠ .error .outOfBlob) :
  ∃ r, TokenAt align blob (start + offset) r :=
 tokenAt_of_length (bind_ne_outOfBlob h)

def tokenMemory (token : Token) : ℕ := if token.isNode then sizeofNode else sizeofAttr

theorem measure_of_walk {memLen : ℕ} {tokens : List Token} {complete : Bool}
  (h : Walk align blob start length offset tokens complete) (hrounds : length ≤ offset + rounds) :
  generateLoop align blob start length rounds offset (.measure memLen) =
   if complete then .ok (.measure (memLen + (tokens.map tokenMemory).sum))
   else .error .failure := by
 induction h generalizing rounds memLen with
 | @done offset hend =>
  cases rounds with
  | zero => rfl
  | succ rounds => rw [generateLoop, if_neg (not_lt.mpr hend)]; rfl
 | @unknown offset hend htoken =>
  cases rounds with
  | zero => exact absurd hrounds (not_le.mpr hend)
  | succ rounds =>
   rw [generateLoop, if_pos hend, parseByteCode_unknown _ htoken]
   rfl
 | @step offset token tokens complete hend htoken hrest ih =>
  have pos := htoken.size_pos
  cases rounds with
  | zero => exact absurd hrounds (not_le.mpr hend)
  | succ rounds =>
   have parsed : parseToken align blob start offset token (.measure memLen) =
     .ok (.measure (memLen + tokenMemory token)) := by
    rw [parseToken, tokenMemory]
    cases token.isNode <;> rfl
   rw [generateLoop, if_pos hend, parseByteCode_of_token _ htoken, parsed]
   refine (ih (by omega)).trans ?_
   rw [List.map_cons, List.sum_cons, Nat.add_assoc]

theorem walk_of_measure {memLen : ℕ} (hrounds : length ≤ offset + rounds)
  (h : generateLoop align blob start length rounds offset (.measure memLen) ≠
   .error .outOfBlob) :
  ∃ tokens complete, Walk align blob start length offset tokens complete := by
 induction rounds generalizing offset memLen with
 | zero => exact ⟨[], true, .done hrounds⟩
 | succ rounds ih =>
  rcases Nat.lt_or_ge offset length with hend | hend
  · rw [generateLoop, if_pos hend] at h
    obtain ⟨r, htoken⟩ := tokenAt_of_parseByteCode (bind_ne_outOfBlob h)
    cases r with
    | none => exact ⟨[], false, .unknown hend htoken⟩
    | some token =>
     have pos := htoken.size_pos
     have parsed : parseToken align blob start offset token (.measure memLen) =
       .ok (.measure (memLen + tokenMemory token)) := by
      rw [parseToken, tokenMemory]
      cases token.isNode <;> rfl
     rw [parseByteCode_of_token _ htoken, parsed] at h
     obtain ⟨tokens, complete, hrest⟩ := ih (by omega) h
     exact ⟨token :: tokens, complete, .step hend htoken hrest⟩
  · exact ⟨[], true, .done hend⟩

theorem getParentNode_eq : getParentNode bound stack =
   match stack.dropWhile fun entry => decide (entry.offset < bound) with
   | [] => none
   | entry :: below => some (entry.node, entry :: below) := by
 induction stack with
 | nil => rfl
 | cons entry below ih =>
  rw [getParentNode, List.dropWhile_cons]
  by_cases reaches : entry.offset ≥ bound
  · rw [if_pos reaches, decide_eq_false (not_lt.mpr reaches)]
    rfl
  · rw [if_neg reaches, decide_eq_true (not_le.mp reaches), ih]
    rfl

def stackEnds (stack : List TreeStack) : List ℕ := stack.map TreeStack.offset

theorem dropWhile_stackEnds :
  (stackEnds stack).dropWhile (fun nodeEnd => decide (nodeEnd < bound)) =
   stackEnds (stack.dropWhile fun entry => decide (entry.offset < bound)) :=
 List.dropWhile_map

theorem parentLayer_ends : stackEnds (parentLayer bound stack).2 =
   let inner := (stackEnds stack).dropWhile fun nodeEnd => decide (nodeEnd < bound)
   if inner = [] then stackEnds stack else inner := by
 rw [parentLayer, getParentNode_eq, dropWhile_stackEnds]
 cases stack.dropWhile fun entry => decide (entry.offset < bound) <;> rfl

theorem addAttrInNode_of_name {size : ℕ} (parent : ℕ) (nodes : List DeviceResourceNode)
  (hname : NameAt align blob (pos + hcsPrefixLength align) size) :
  ∃ nodes', addAttrInNode align blob pos parent nodes = .ok nodes' := by
 rw [addAttrInNode, stringLength_of_nameAt hname]
 exact ⟨_, rfl⟩

theorem parseAttr_of_token (tree : TreeGen)
  (htoken : TokenAt align blob (start + offset) (some token)) :
  ((stackEnds tree.stack).dropWhile
    (fun nodeEnd => decide (nodeEnd < (token.size + offset) % 2 ^ 32)) = [] ∧
   parseAttr align blob start offset token.size (.build tree) = .error .failure) ∨
  ∃ next : TreeGen, stackEnds next.stack = (stackEnds tree.stack).dropWhile
    (fun nodeEnd => decide (nodeEnd < (token.size + offset) % 2 ^ 32)) ∧
   stackEnds next.stack ≠ [] ∧
   parseAttr align blob start offset token.size (.build tree) = .ok (.build next) := by
 obtain ⟨size, hname, -⟩ := htoken.nameAt
 rw [parseAttr, getParentNode_eq, dropWhile_stackEnds]
 cases tree.stack.dropWhile fun entry =>
   decide (entry.offset < (token.size + offset) % 2 ^ 32) with
 | nil => exact Or.inl ⟨rfl, rfl⟩
 | cons entry below =>
  obtain ⟨nodes, added⟩ := addAttrInNode_of_name entry.node tree.nodes hname
  refine Or.inr ⟨⟨nodes, entry :: below⟩, rfl, List.cons_ne_nil _ _, ?_⟩
  change (do
   let nodes ← addAttrInNode align blob (start + offset) entry.node tree.nodes
   return TreePass.build ⟨nodes, entry :: below⟩ : HcsRead TreePass) = _
  rw [added]
  rfl

theorem parseNode_of_token {parent : Option ℕ}
  {below : List TreeStack} (tree : TreeGen)
  (htoken : TokenAt align blob (start + offset) (some token)) (hnode : token.isNode = true)
  (hlayer : parentLayer ((token.size + offset) % 2 ^ 32) tree.stack = (parent, below)) :
  parseNode align blob start offset token.size (.build tree) = do
   let subSize ← hcsByteCodeToUint32 blob (start + offset + token.size - hcsDwordLength)
   if below.length ≥ treeStackMax - 1 then throw HcsStop.failure
   else
    return .build ⟨createTreeNode align start offset parent tree.nodes,
     ⟨tree.nodes.length, (subSize + offset + token.size) % 2 ^ 32⟩ :: below⟩ := by
 obtain ⟨size, hname, hsize⟩ := htoken.nameAt
 have place : start + offset + token.size - hcsDwordLength =
   start + offset + hcsPrefixLength align + size := by
  have := hsize hnode
  omega
 rw [parseNode, place, hlayer]
 dsimp only
 rw [stringLength_of_nameAt hname]
 rfl

theorem parseNode_inside {parent : Option ℕ} {below : List TreeStack} (tree : TreeGen)
  (htoken : TokenAt align blob (start + offset) (some token)) (hnode : token.isNode = true)
  (hlayer : parentLayer ((token.size + offset) % 2 ^ 32) tree.stack = (parent, below)) :
  (∃ (subSize : ℕ) (next : TreeGen),
   WordAt blob hcsDwordLength (start + offset + token.size - hcsDwordLength) subSize ∧
   stackEnds next.stack = (subSize + offset + token.size) % 2 ^ 32 :: stackEnds below ∧
   parseNode align blob start offset token.size (.build tree) =
    if below.length < treeStackMax - 1 then .ok (.build next) else .error .failure) ∨
  ((∀ subSize,
   ¬ WordAt blob hcsDwordLength (start + offset + token.size - hcsDwordLength) subSize) ∧
   parseNode align blob start offset token.size (.build tree) = .error .outOfBlob) := by
 rw [parseNode_of_token tree htoken hnode hlayer]
 by_cases out : hcsByteCodeToUint32 blob (start + offset + token.size - hcsDwordLength) =
   .error .outOfBlob
 · refine Or.inr ⟨?_, ?_⟩
   · intro subSize word
     have read : hcsByteCodeToUint32 blob (start + offset + token.size - hcsDwordLength) =
       .ok subSize := uint_of_wordAt word
     rw [read] at out
     cases out
   · rw [out]
     rfl
 obtain ⟨subSize, word⟩ := wordAt_of_uint out
 have read : hcsByteCodeToUint32 blob (start + offset + token.size - hcsDwordLength) =
   .ok subSize := uint_of_wordAt word
 refine Or.inl ⟨subSize, ⟨createTreeNode align start offset parent tree.nodes,
  ⟨tree.nodes.length, (subSize + offset + token.size) % 2 ^ 32⟩ :: below⟩, word, rfl, ?_⟩
 rw [read]
 by_cases deep : below.length < treeStackMax - 1
 · rw [if_pos deep]
   exact if_neg (not_le.mpr deep)
 · rw [if_neg deep]
   exact if_pos (not_lt.mp deep)

theorem build_inside_iff {tokens : List Token}
  (h : Walk align blob start length offset tokens true) (tree : TreeGen)
  (hrounds : length ≤ offset + rounds) :
  generateLoop align blob start length rounds offset (.build tree) ≠ .error .outOfBlob ↔
   SubSizesAt blob start offset (stackEnds tree.stack) tokens := by
 generalize hcomplete : true = complete at h
 induction h generalizing rounds tree with
 | @done offset hend =>
  refine iff_of_true ?_ trivial
  cases rounds with
  | zero => exact fun out => by cases out
  | succ rounds =>
   rw [generateLoop, if_neg (not_lt.mpr hend)]
   exact fun out => by cases out
 | unknown hend htoken => cases hcomplete
 | @step offset token tokens complete hend htoken hrest ih =>
  have pos := htoken.size_pos
  cases rounds with
  | zero => exact absurd hrounds (not_le.mpr hend)
  | succ rounds =>
   rw [generateLoop, if_pos hend, parseByteCode_of_token _ htoken, parseToken, SubSizesAt]
   cases hnode : token.isNode with
   | false =>
    rcases parseAttr_of_token tree htoken with ⟨ends, parsed⟩ | ⟨next, ends, open', parsed⟩
    · simp only [Bool.false_eq_true, if_false, parsed, ends, ne_eq, not_true_eq_false,
       false_imp_iff, iff_true]
      exact fun out => by cases out
    · simp only [Bool.false_eq_true, if_false, parsed, ← ends]
      exact (ih next (by omega) hcomplete).trans (imp_iff_right open').symm
   | true =>
    have ends := parentLayer_ends ((token.size + offset) % 2 ^ 32) tree.stack
    generalize hlayer : parentLayer ((token.size + offset) % 2 ^ 32) tree.stack = layer at ends
    obtain ⟨parent, below⟩ := layer
    have layers : (stackEnds below).length = below.length := List.length_map _
    simp only [if_true, ← ends, layers]
    rcases parseNode_inside tree htoken hnode hlayer with
     ⟨subSize, next, word, open', parsed⟩ | ⟨missing, parsed⟩
    · have only : ∀ n, WordAt blob hcsDwordLength
        (start + offset + token.size - hcsDwordLength) n → n = subSize :=
       fun n other => other.2.symm.trans word.2
      rw [parsed]
      by_cases deep : below.length < treeStackMax - 1
      · rw [if_pos deep]
        refine (ih next (by omega) hcomplete).trans ⟨?_, ?_⟩
        · intro rest
          rw [open'] at rest
          exact ⟨subSize, word, fun _ => rest⟩
        · rintro ⟨n, other, rest⟩
          rw [open', ← only n other]
          exact rest deep
      · rw [if_neg deep]
        refine iff_of_true (fun out => by cases out) ⟨subSize, word, fun less => ?_⟩
        exact absurd less deep
    · rw [parsed]
      refine iff_of_false (fun inside => inside rfl) ?_
      rintro ⟨subSize, word, -⟩
      exact missing subSize word

theorem nodeLength_of_token {size subSize : ℕ} (htoken : TokenAt align blob start (some token))
  (hname : NameAt align blob (start + hcsPrefixLength align) size)
  (hsub : WordAt blob hcsDwordLength (start + hcsPrefixLength align + size) subSize) :
  hcsGetNodeLength align blob start = .ok (int32OfUint32 (token.size + subSize)) := by
 have read : hcsByteCodeToUint32 blob (start + hcsPrefixLength align + size) = .ok subSize :=
  uint_of_wordAt hsub
 rw [hcsGetNodeLength, token_of_tokenAt htoken]
 change (do
  let nameLen ← hcsStringLength align blob (start + hcsPrefixLength align)
  let subSize ← hcsByteCodeToUint32 blob (start + hcsPrefixLength align + nameLen)
  return int32OfUint32 (token.size + subSize) : HcsRead ℤ) = _
 rw [stringLength_of_nameAt hname]
 change (do
  let subSize ← hcsByteCodeToUint32 blob (start + hcsPrefixLength align + size)
  return int32OfUint32 (token.size + subSize) : HcsRead ℤ) = _
 rw [read]
 rfl

theorem shape_of_nodeLength (h : hcsGetNodeLength align blob start ≠ .error .outOfBlob) :
  ∃ root, TokenAt align blob start root ∧ ∀ token, root = some token →
   ∃ size subSize, NameAt align blob (start + hcsPrefixLength align) size ∧
    WordAt blob hcsDwordLength (start + hcsPrefixLength align + size) subSize := by
 obtain ⟨root, htoken⟩ := tokenAt_of_length (bind_ne_outOfBlob h)
 refine ⟨root, htoken, ?_⟩
 rintro token rfl
 obtain ⟨size, hname, -⟩ := htoken.nameAt
 rw [hcsGetNodeLength, token_of_tokenAt htoken] at h
 change (do
  let nameLen ← hcsStringLength align blob (start + hcsPrefixLength align)
  let subSize ← hcsByteCodeToUint32 blob (start + hcsPrefixLength align + nameLen)
  return int32OfUint32 (token.size + subSize) : HcsRead ℤ) ≠ _ at h
 rw [stringLength_of_nameAt hname] at h
 obtain ⟨subSize, hsub⟩ := wordAt_of_uint (bind_ne_outOfBlob h)
 exact ⟨size, subSize, hname, hsub⟩

theorem tokenMemory_pos (token : Token) : 0 < tokenMemory token := by
 rw [tokenMemory]
 split_ifs <;> decide

def rootOf : TreePass → HcsRead CfgTree
 | .measure _ => throw .failure
 | .build tree =>
  match tree.stack.getLast? with
  | none => throw .failure
  | some entry => return ⟨tree.nodes, entry.node⟩

theorem decompileTree_of_walk {tokens : List Token} {complete : Bool} (mem : DecompileMem)
  (h : Walk align blob start length 0 tokens complete) :
  decompileTree align blob start length mem =
   if mem.sizeStack = true ∧ complete = true ∧ tokens ≠ [] ∧ mem.treeMem = true ∧
     mem.treeStack = true then
    generateLoop align blob start length length 0 (.build ⟨[], []⟩) >>= rootOf
   else .error .failure := by
 have measured := @measure_of_walk align blob start length length 0 0 tokens complete h
  (Nat.zero_add length).ge
 have empty : 0 + (tokens.map tokenMemory).sum = 0 ↔ tokens = [] := by
  cases tokens with
  | nil => exact iff_of_true rfl rfl
  | cons first rest =>
   have := tokenMemory_pos first
   rw [List.map_cons, List.sum_cons]
   exact iff_of_false (by omega) (List.cons_ne_nil _ _)
 obtain ⟨sizeStack, treeMem, treeStack⟩ := mem
 cases sizeStack
 · rfl
 · simp only [decompileTree, generateCfgTree, measured, Bool.not_true, Bool.false_eq_true,
    if_false, true_and]
   cases complete
   · rfl
   · simp only [if_true, bind, Except.bind, empty, true_and]
     by_cases htokens : tokens = []
     · rw [if_pos htokens, if_neg (fun h => h.1 htokens)]
       rfl
     rw [if_neg htokens]
     cases treeMem
     · exact (if_neg fun h => Bool.noConfusion h.2.1).symm
     · cases treeStack
       · exact (if_neg fun h => Bool.noConfusion h.2.2).symm
       · exact (if_pos ⟨htokens, rfl, rfl⟩).symm

theorem decompileTree_inside_iff (length : ℕ) :
  (∀ mem, decompileTree align blob start length mem ≠ .error .outOfBlob) ↔
   ∃ tokens complete, Walk align blob start length 0 tokens complete ∧
    (complete = true → SubSizesAt blob start 0 [] tokens) := by
 have enough : length ≤ 0 + length := (Nat.zero_add length).ge
 constructor
 · intro inside
   have full := inside ⟨true, true, true⟩
   have counting : generateLoop align blob start length length 0 (.measure 0) ≠
    .error .outOfBlob := bind_ne_outOfBlob full
   obtain ⟨tokens, complete, walk⟩ := walk_of_measure enough counting
   refine ⟨tokens, complete, walk, ?_⟩
   rintro rfl
   by_cases htokens : tokens = []
   · rw [htokens]
     trivial
   · rw [decompileTree_of_walk _ walk, if_pos ⟨rfl, rfl, htokens, rfl, rfl⟩] at full
     exact (build_inside_iff walk ⟨[], []⟩ enough).mp (bind_ne_outOfBlob full)
 · rintro ⟨tokens, complete, walk, sizes⟩ mem
   rw [decompileTree_of_walk mem walk]
   split_ifs with built
   · obtain ⟨-, rfl, -⟩ := built
     have inside := (build_inside_iff walk ⟨[], []⟩ enough).mpr (sizes rfl)
     intro out
     cases hpass : generateLoop align blob start length length 0 (.build ⟨[], []⟩) with
     | error stop =>
      rw [hpass] at out inside
      cases out
      exact inside rfl
     | ok pass =>
      rw [hpass] at out
      change rootOf pass = _ at out
      cases pass with
      | measure memLen => cases out
      | build tree =>
       rw [rootOf] at out
       split at out <;> cases out
   · exact fun out => by cases out

theorem decompile_inside_iff : (∀ mem, hcsDecompile align blob start mem ≠ .error .outOfBlob) ↔
   Readable align blob start := by
 constructor
 · intro inside
   obtain ⟨root, htoken, shape⟩ := shape_of_nodeLength (bind_ne_outOfBlob (inside ⟨true, true, true⟩))
   refine ⟨root, htoken, ?_⟩
   rintro token rfl
   obtain ⟨size, subSize, hname, hsub⟩ := shape token rfl
   refine ⟨size, subSize, hname, hsub, ?_⟩
   intro nonneg
   refine (decompileTree_inside_iff _).mp fun mem out => inside mem ?_
   rw [hcsDecompile, nodeLength_of_token htoken hname hsub]
   exact (if_neg (not_lt.mpr nonneg)).trans out
 · rintro ⟨root, htoken, shape⟩ mem
   cases root with
   | none =>
    rw [hcsDecompile, hcsGetNodeLength, token_of_tokenAt htoken]
    exact fun out => by cases out
   | some token =>
    obtain ⟨size, subSize, hname, hsub, passes⟩ := shape token rfl
    rw [hcsDecompile, nodeLength_of_token htoken hname hsub]
    intro out
    by_cases nonneg : 0 ≤ int32OfUint32 (token.size + subSize)
    · refine (decompileTree_inside_iff _).mpr (passes nonneg) mem ?_
      exact (if_neg (not_lt.mpr nonneg)).symm.trans out
    · have stopped := (if_pos (not_le.mp nonneg)).symm.trans out
      cases stopped

end

/-- Every blob that the check accepts is decompiled without a read behind its end. -/
def ReadsInside (gByteAlign : Bool) (blob : List UInt8) : Prop :=
 ∀ align, hcsCheckBlobFormat gByteAlign blob = (true, align) →
  ∀ mem, hcsDecompile align blob hbcHeaderLength mem ≠ .error .outOfBlob

/-- The check compares no more than the total length, so an accepted blob is read
inside exactly if the objects it happens to hold are readable. -/
theorem readsInside_iff_readable (gByteAlign : Bool) (blob : List UInt8) :
    ReadsInside gByteAlign blob ↔
      ∀ align, hcsCheckBlobFormat gByteAlign blob = (true, align) →
        Readable align blob hbcHeaderLength :=
  forall₂_congr fun _ _ => decompile_inside_iff

/-- A root node whose name does not end inside the blob. -/
def unterminatedName : List UInt8 :=
 leBytes 4 hbcMagicNumber ++ List.replicate 12 0 ++ leBytes 4 20 ++ List.replicate 20 1

theorem unterminatedName_leaves_blob : hcsCheckBlobFormat false unterminatedName = (true, false) ∧
      hcsDecompile false unterminatedName hbcHeaderLength ⟨true, true, true⟩ =
        .error .outOfBlob := by
  decide +kernel

end DriversFramework.Hcs
