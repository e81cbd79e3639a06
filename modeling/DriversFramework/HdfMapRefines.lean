import Mathlib.Data.Finmap
import DriversFramework.HdfMap

namespace DriversFramework.HdfMap

/-- What a map holds. -/
abbrev Content := Finmap fun _ : List UInt8 => List UInt8

namespace Content

/-- A value is stored under a new key, or in place of one of the same length. -/
def set (c : Content) (key value : List UInt8) : HdfStatus × Content :=
 if value.length = 0 ∨ value.length > 1000 ∨ key.length > 1000 then (.errInvalidParam, c)
 else
  match c.lookup key with
  | some old =>
   if old.length ≠ value.length then (.errInvalidObject, c) else (.success, c.insert key value)
  | none => (.success, c.insert key value)

def remove (c : Content) (key : List UInt8) : HdfStatus × Content :=
 if c.keys.card = 0 then (.errInvalidParam, c)
 else
  match c.lookup key with
  | some _ => (.success, c.erase key)
  | none => (.failure, c)

def call (c : Content) : MapCall → MapAnswer × Content
 | .set key value => (.status (c.set key value).1, (c.set key value).2)
 | .get key => (.value (c.lookup key), c)
 | .erase key => (.status (c.remove key).1, (c.remove key).2)

def run (c : Content) : List MapCall → List MapAnswer × Content
 | [] => ([], c)
 | call :: calls =>
  let first := c.call call
  let rest := first.2.run calls
  (first.1 :: rest.1, rest.2)

end Content

def MapNode.entry (node : MapNode) : Σ _ : List UInt8, List UInt8 := ⟨node.key, node.value⟩

def Lists (c : Content) (nodes : List MapNode) : Prop :=
 c.entries = Multiset.ofList (nodes.map MapNode.entry)

/-- Every node is in the bucket of its hash, every hash is that of its key. -/
structure Sound (map : Map) : Prop where
 buckets : map.nodes.length = map.bucketSize.toNat
 placed : HashChains.Placed (MapNode.idx map.bucketSize) map.nodes
 hashed : ∀ node ∈ map.nodes.flatten, node.hash = mapHash node.key

structure Represents (map : Map) (c : Content) : Prop extends Sound map where
 lists : Lists c map.nodes.flatten
 counted : map.nodeSize = UInt32.ofNat c.keys.card

section Entries
variable {c : Content} {nodes others : List MapNode} {node : MapNode} {key value : List UInt8}

theorem kerase_entry (entries : List (Σ _ : List UInt8, List UInt8)) :
  List.kerase node.key (node.entry :: entries) = entries :=
 List.kerase_cons_eq rfl

theorem Lists.perm (h : Lists c nodes) (perm : nodes.Perm others) : Lists c others :=
 h.trans (Multiset.coe_eq_coe.mpr (perm.map _))

theorem Lists.toFinmap (h : Lists c nodes) :
  ∃ entries : AList fun _ : List UInt8 => List UInt8,
   entries.entries = nodes.map MapNode.entry ∧ c = entries.toFinmap := by
 have nodup : (nodes.map MapNode.entry).NodupKeys := by
  rw [← Multiset.coe_nodupKeys, ← h]
  exact c.nodupKeys
 exact ⟨⟨_, nodup⟩, rfl, Finmap.ext h⟩

theorem Lists.card (h : Lists c nodes) : c.keys.card = nodes.length := by
 obtain ⟨entries, listed, rfl⟩ := h.toFinmap
 have keys : (Finmap.keys entries.toFinmap).val = entries.keys := Finmap.keys_val entries
 rw [Finset.card_def, keys, Multiset.coe_card, AList.keys, listed]
 exact (List.length_map _).trans (List.length_map _)

theorem Lists.lookup_none (h : Lists c nodes) (absent : ∀ node ∈ nodes, node.key ≠ key) :
  c.lookup key = none := by
 obtain ⟨entries, listed, rfl⟩ := h.toFinmap
 rw [Finmap.lookup_eq_none, Finmap.mem_toFinmap, AList.mem_keys, AList.keys, listed]
 simpa [List.keys, MapNode.entry] using absent

theorem Lists.insert_new (h : Lists c nodes) (absent : c.lookup key = none)
  (keyed : node.key = key) (valued : node.value = value) :
  Lists (c.insert key value) (node :: nodes) := by
 rw [Lists, Finmap.entries_insert_of_notMem (Finmap.lookup_eq_none.mp absent), h]
 subst keyed valued
 rfl

theorem Lists.lookup_cons (h : Lists c (node :: nodes)) : c.lookup node.key = some node.value := by
 obtain ⟨entries, listed, rfl⟩ := h.toFinmap
 rw [Finmap.lookup_toFinmap, AList.lookup, listed, List.map_cons]
 exact List.dlookup_cons_eq _ _ _

theorem Lists.erase_cons (h : Lists c (node :: nodes)) : Lists (c.erase node.key) nodes := by
 obtain ⟨entries, listed, rfl⟩ := h.toFinmap
 rw [Lists, Finmap.erase_toFinmap]
 change Multiset.ofList (List.kerase node.key entries.entries) = _
 rw [listed, List.map_cons, kerase_entry]

theorem Lists.insert_cons (h : Lists c (node :: nodes)) :
  Lists (c.insert node.key value) ({ node with value } :: nodes) := by
 obtain ⟨entries, listed, rfl⟩ := h.toFinmap
 rw [Lists, Finmap.insert_toFinmap]
 change Multiset.ofList (List.kinsert node.key value entries.entries) = _
 rw [listed, List.map_cons, List.kinsert_def, kerase_entry]
 rfl

end Entries

section Table
variable {map : Map} {c : Content} {key value : List UInt8}

theorem idx_lt {size : UInt32} (hash : UInt32) (hsize : size ≠ 0) :
  (mapHashIdx size hash).toNat < size.toNat := by
 have positive : size.toNat ≠ 0 := fun h => hsize (UInt32.toNat_inj.mp h)
 have one : (1 : UInt32) ≤ size := by
  rw [UInt32.le_iff_toNat_le]
  change 1 ≤ size.toNat
  omega
 have masked : (mapHashIdx size hash).toNat ≤ size.toNat - 1 := by
  rw [mapHashIdx, UInt32.toNat_and, UInt32.toNat_sub_of_le _ _ one]
  exact Nat.and_le_right
 omega

theorem Sound.bucketSize_ne (h : Sound map) (hnodes : map.nodes ≠ []) : map.bucketSize ≠ 0 := by
 intro zero
 apply hnodes
 rw [← List.length_eq_zero_iff, h.buckets, zero]
 rfl

theorem Sound.chain_getElem? (h : Sound map) (hsize : map.bucketSize ≠ 0) (hash : UInt32) :
  map.nodes[(mapHashIdx map.bucketSize hash).toNat]? = some (map.chain hash) := by
 have inside := idx_lt hash hsize
 rw [← h.buckets] at inside
 rw [Map.chain, List.getD_eq_getElem?_getD, List.getElem?_eq_getElem inside, Option.getD_some]

def Belongs (map : Map) (hash : UInt32) (node : MapNode) : Prop :=
 node.idx map.bucketSize = (mapHashIdx map.bucketSize hash).toNat ∧ node.hash = mapHash node.key

theorem Sound.belongs (h : Sound map) (hsize : map.bucketSize ≠ 0) (hash : UInt32) :
  ∀ node ∈ map.chain hash, Belongs map hash node := by
 intro node hnode
 have hchain := h.chain_getElem? hsize hash
 exact ⟨h.placed _ _ hchain node hnode,
  h.hashed node (HashChains.mem_flatten_of_chain hchain hnode)⟩

theorem Sound.setChain_flatten (h : Sound map) (hsize : map.bucketSize ≠ 0) (hash : UInt32)
  (new : List MapNode) :
  ∃ front back, map.nodes.flatten = front ++ (map.chain hash ++ back) ∧
   (map.setChain hash new).nodes.flatten = front ++ (new ++ back) :=
 HashChains.flatten_set (h.chain_getElem? hsize hash) new

theorem Sound.setChain (h : Sound map) (hsize : map.bucketSize ≠ 0) {hash : UInt32}
  {new : List MapNode} (belongs : ∀ node ∈ new, Belongs map hash node) :
  Sound (map.setChain hash new) where
 buckets := (List.length_set).trans h.buckets
 placed := h.placed.set fun node hnode => (belongs node hnode).1
 hashed := by
  obtain ⟨front, back, old, replaced⟩ := h.setChain_flatten hsize hash new
  intro node hnode
  rw [replaced, List.mem_append, List.mem_append] at hnode
  rcases hnode with infront | isnew | inback
  · exact h.hashed node (by simp [old, infront])
  · exact (belongs node isnew).2
  · exact h.hashed node (by simp [old, inback])

structure Found (map : Map) (key : List UInt8) (front : List MapNode) (node : MapNode)
  (back : List MapNode) : Prop where
 chain : map.chain (mapHash key) = front ++ node :: back
 skipped : ∀ other ∈ front, other.is (mapHash key) key = false
 found : node.is (mapHash key) key = true

theorem Sound.search (h : Sound map) (hsize : map.bucketSize ≠ 0) (key : List UInt8) :
  (∃ front node back, Found map key front node back) ∨
   (∀ node ∈ map.chain (mapHash key), node.is (mapHash key) key = false) ∧
    ∀ node ∈ map.nodes.flatten, node.key ≠ key := by
 cases result : (map.chain (mapHash key)).find? fun node => node.is (mapHash key) key with
 | some node =>
  left
  obtain ⟨found, front, back, chain, skipped⟩ := List.find?_eq_some_iff_append.mp result
  exact ⟨front, node, back, chain, by simpa using skipped, found⟩
 | none =>
  right
  have missed : ∀ node ∈ map.chain (mapHash key), node.is (mapHash key) key = false := by
   simpa using List.find?_eq_none.mp result
  refine ⟨missed, ?_⟩
  rintro node hnode rfl
  -- a node with the key has its hash, so it stands in the chain that was searched
  obtain ⟨chain, hchain, hmem⟩ := h.placed.mem_chain hnode
  have hhash := h.hashed node hnode
  rw [MapNode.idx, hhash, h.chain_getElem? hsize] at hchain
  cases hchain
  exact Bool.noConfusion ((missed node hmem).symm.trans (MapNode.is_iff.mpr ⟨hhash, rfl⟩))

theorem Found.perm {front back : List MapNode} {node : MapNode} (h : Sound map)
  (hsize : map.bucketSize ≠ 0) (found : Found map key front node back) (new : List MapNode) :
  ∃ rest, map.nodes.flatten.Perm (node :: rest) ∧
   (map.setChain (mapHash key) (front ++ (new ++ back))).nodes.flatten.Perm (new ++ rest) := by
 obtain ⟨before, after, old, replaced⟩ :=
  h.setChain_flatten hsize (mapHash key) (front ++ (new ++ back))
 refine ⟨before ++ (front ++ (back ++ after)), ?_, ?_⟩
 · rw [old, found.chain]
   simpa using @List.perm_middle _ node (before ++ front) (back ++ after)
 · rw [replaced]
   simpa using List.perm_append_comm_assoc (before ++ front) new (back ++ after)

theorem Represents.nodeSize_toNat (h : Represents map c) (small : c.keys.card < 2 ^ 32) :
  map.nodeSize.toNat = c.keys.card := by
 rw [h.counted, UInt32.toNat_ofNat', Nat.mod_eq_of_lt small]

theorem Represents.card (h : Represents map c) : c.keys.card = map.nodes.flatten.length :=
 h.lists.card

theorem Represents.empty (h : Represents map c) (small : c.keys.card < 2 ^ 32)
  (hnone : map.nodeSize = 0 ∨ map.nodes = []) : c.keys.card = 0 := by
 rcases hnone with count | nodes
 · rw [← h.nodeSize_toNat small, count]
   rfl
 · rw [h.card, nodes]
   rfl

theorem lookup_of_card (hcard : c.keys.card = 0) (key : List UInt8) : c.lookup key = none := by
 rw [Finset.card_eq_zero] at hcard
 rw [Finmap.lookup_eq_none, ← Finmap.mem_keys, hcard]
 exact Finset.notMem_empty key

theorem foldl_mapAddNode (nodes : List MapNode) :
  nodes.foldl mapAddNode map =
   { map with nodes := nodes.foldl (HashChains.add (MapNode.idx map.bucketSize)) map.nodes } := by
 induction nodes generalizing map with
 | nil => rfl
 | cons node nodes ih =>
  rw [List.foldl_cons, ih]
  rfl

theorem Represents.resize (h : Represents map c) (size : UInt32) :
  Represents (mapResize map size) c := by
 rw [mapResize]
 split_ifs with zero
 · exact h
 · have fresh : HashChains.Placed (MapNode.idx size) (List.replicate size.toNat []) :=
    HashChains.placed_replicate size.toNat
   obtain ⟨buckets, placed, perm⟩ := fresh.addAll List.length_replicate
    (fun node => idx_lt node.hash zero) map.nodes.flatten
   have same : (map.nodes.flatten.foldl (HashChains.add (MapNode.idx size))
     (List.replicate size.toNat [])).flatten.Perm map.nodes.flatten := by
    apply perm.trans
    simp
   rw [foldl_mapAddNode]
   exact {
    buckets := buckets
    placed := placed
    hashed := fun node hnode => h.hashed node (same.mem_iff.mp hnode)
    lists := h.lists.perm same.symm
    counted := h.counted }

theorem mapResize_bucketSize {size : UInt32} (hsize : size ≠ 0) :
  (mapResize map size).bucketSize = size := by
 rw [mapResize, if_neg hsize, foldl_mapAddNode]

theorem Represents.add (h : Represents map c) (hsize : map.bucketSize ≠ 0)
  (absent : c.lookup key = none) :
  Represents
   { mapAddNode map (mapCreateNode key (mapHash key) value) with
    nodeSize := map.nodeSize + 1 } (c.insert key value) := by
 have perm : (mapAddNode map (mapCreateNode key (mapHash key) value)).nodes.flatten.Perm
   (mapCreateNode key (mapHash key) value :: map.nodes.flatten) := by
  apply HashChains.add_perm
  rw [h.buckets]
  exact idx_lt _ hsize
 have lists : Lists (c.insert key value)
   (mapCreateNode key (mapHash key) value :: map.nodes.flatten) :=
  h.lists.insert_new absent rfl rfl
 exact {
  buckets := (HashChains.add_length _).trans h.buckets
  placed := h.placed.add
  hashed := by
   intro node hnode
   rcases List.mem_cons.mp (perm.mem_iff.mp hnode) with rfl | old
   · rfl
   · exact h.hashed node old
  lists := lists.perm perm.symm
  counted := by
   change map.nodeSize + 1 = _
   rw [h.counted, lists.card, List.length_cons, ← h.card, UInt32.ofNat_add]
   rfl }

theorem Represents.setNew (h : Represents map c) (absent : c.lookup key = none) :
  Represents (mapSetNew map key value) (c.insert key value) := by
 rw [mapSetNew]
 split_ifs with full few
 · apply (h.resize hdfMinMapSize).add _ absent
   rw [mapResize_bucketSize (by decide)]
   decide
 · rcases eq_or_ne (map.bucketSize <<< hdfEnlargeFactor) 0 with zero | nonzero
   · rw [zero, mapResize, if_pos rfl]
     apply h.add _ absent
     rintro none
     exact few (none ▸ by decide)
   · apply (h.resize _).add _ absent
     rw [mapResize_bucketSize nonzero]
     exact nonzero
 · apply h.add _ absent
   rintro none
   exact full (none ▸ UInt32.zero_le)

end Table

section Calls
variable {map : Map} {c : Content} {key value : List UInt8} {front back : List MapNode}
  {node : MapNode}

theorem Found.key_eq (found : Found map key front node back) : node.key = key :=
 (MapNode.is_iff.mp found.found).2

theorem Found.lookup (h : Represents map c) (hsize : map.bucketSize ≠ 0)
  (found : Found map key front node back) : c.lookup key = some node.value := by
 obtain ⟨rest, old, -⟩ := found.perm h.toSound hsize []
 rw [← found.key_eq]
 exact (h.lists.perm old).lookup_cons

theorem Found.update (h : Represents map c) (hsize : map.bucketSize ≠ 0)
  (found : Found map key front node back) :
  Represents (map.setChain (mapHash key) (front ++ { node with value } :: back))
   (c.insert key value) := by
 obtain ⟨rest, old, replaced⟩ := found.perm h.toSound hsize [{ node with value }]
 have lists : Lists (c.insert key value) ({ node with value } :: rest) := by
  rw [← found.key_eq]
  exact (h.lists.perm old).insert_cons
 have belongs := h.belongs hsize (mapHash key)
 rw [found.chain] at belongs
 apply Represents.mk (h.setChain hsize _) (lists.perm replaced.symm)
 · change map.nodeSize = _
   rw [h.counted, lists.card, (h.lists.perm old).card]
   rfl
 · intro other hother
   rcases List.mem_append.mp hother with before | after
   · exact belongs other (by simp [before])
   · rcases List.mem_cons.mp after with rfl | after
     · exact belongs node (by simp)
     · exact belongs other (List.mem_append_right _ (List.mem_cons_of_mem _ after))

theorem Found.erase (h : Represents map c) (hsize : map.bucketSize ≠ 0)
  (found : Found map key front node back) :
  Represents
   { map.setChain (mapHash key) (front ++ back) with nodeSize := map.nodeSize - 1 }
   (c.erase key) := by
 obtain ⟨rest, old, replaced⟩ := found.perm h.toSound hsize []
 have lists := (h.lists.perm old).erase_cons
 rw [found.key_eq] at lists
 have belongs := h.belongs hsize (mapHash key)
 rw [found.chain] at belongs
 have sound : Sound (map.setChain (mapHash key) (front ++ back)) := by
  apply h.setChain hsize
  intro other hother
  rcases List.mem_append.mp hother with before | after
  · exact belongs other (by simp [before])
  · exact belongs other (by simp [after])
 exact {
  buckets := sound.buckets
  placed := sound.placed
  hashed := sound.hashed
  lists := lists.perm replaced.symm
  counted := by
   change map.nodeSize - 1 = _
   rw [h.counted, lists.card, (h.lists.perm old).card, List.length_cons, UInt32.ofNat_add]
   exact UInt32.add_sub_cancel _ _ }

theorem mapSet_refines (h : Represents map c) (small : c.keys.card < 2 ^ 32) :
  (mapSet map key value).1 = (c.set key value).1 ∧
   Represents (mapSet map key value).2 (c.set key value).2 := by
 rw [mapSet, Content.set, hdfMapKeyMaxSize, hdfMapValueMaxSize]
 by_cases empty : value.length = 0
 · rw [if_pos empty, if_pos (Or.inl empty)]
   exact ⟨rfl, h⟩
 by_cases long : value.length > 1000 ∨ key.length > 1000
 · rw [if_neg empty, if_pos long, if_pos (Or.inr long)]
   exact ⟨rfl, h⟩
 rw [if_neg empty, if_neg long, if_neg (not_or.mpr ⟨empty, long⟩)]
 by_cases live : map.nodeSize > 0 ∧ map.nodes ≠ []
 · have hsize := h.bucketSize_ne live.2
   rw [if_pos live]
   rcases h.search hsize key with ⟨front, node, back, found⟩ | ⟨missed, absent⟩
   · rw [found.lookup h hsize, found.chain, setInChain_found found.skipped found.found]
     dsimp only
     split_ifs with differ
     · have same : map.setChain (mapHash key) (front ++ node :: back) = map := by
        obtain ⟨inside, chain⟩ :=
         List.getElem?_eq_some_iff.mp (h.chain_getElem? hsize (mapHash key))
        rw [← found.chain, Map.setChain, ← chain, List.set_getElem_self]
       change _ ∧ Represents (map.setChain (mapHash key) (front ++ node :: back)) c
       rw [same]
       exact ⟨rfl, h⟩
     · exact ⟨rfl, found.update h hsize⟩
   · have none := h.lists.lookup_none absent
     rw [setInChain_none missed, none]
     exact ⟨rfl, h.setNew none⟩
 · have none : c.lookup key = none := by
    apply lookup_of_card (h.empty small _)
    by_contra both
    obtain ⟨count, nodes⟩ := not_or.mp both
    exact live ⟨UInt32.pos_iff_ne_zero.mpr count, nodes⟩
   rw [if_neg live, none]
   exact ⟨rfl, h.setNew none⟩

theorem mapGet_refines (h : Represents map c) (small : c.keys.card < 2 ^ 32) :
  mapGet map key = c.lookup key := by
 rw [mapGet]
 split_ifs with hnone
 · exact (lookup_of_card (h.empty small hnone) key).symm
 · have hsize := h.bucketSize_ne (not_or.mp hnone).2
   rcases h.search hsize key with ⟨front, node, back, found⟩ | ⟨missed, absent⟩
   · rw [found.lookup h hsize, found.chain, find?_found found.skipped found.found]
     rfl
   · rw [h.lists.lookup_none absent, List.find?_eq_none.mpr (by simpa using missed)]
     rfl

theorem mapErase_refines (h : Represents map c) (small : c.keys.card < 2 ^ 32) :
  (mapErase map key).1 = (c.remove key).1 ∧
   Represents (mapErase map key).2 (c.remove key).2 := by
 rw [mapErase, Content.remove]
 by_cases hnone : map.nodeSize = 0 ∨ map.nodes = []
 · rw [if_pos hnone, if_pos (h.empty small hnone)]
   exact ⟨rfl, h⟩
 have count : c.keys.card ≠ 0 := by
  intro zero
  apply (not_or.mp hnone).1
  rw [h.counted, zero]
  rfl
 have hsize := h.bucketSize_ne (not_or.mp hnone).2
 rw [if_neg hnone, if_neg count]
 rcases h.search hsize key with ⟨front, node, back, found⟩ | ⟨missed, absent⟩
 · rw [found.lookup h hsize, found.chain, eraseInChain_found found.skipped found.found]
   exact ⟨rfl, found.erase h hsize⟩
 · rw [h.lists.lookup_none absent, eraseInChain_none missed]
   exact ⟨rfl, h⟩

theorem call_refines (call : MapCall) (h : Represents map c) (small : c.keys.card < 2 ^ 32) :
  (map.call call).1 = (c.call call).1 ∧ Represents (map.call call).2 (c.call call).2 := by
 cases call with
 | set key value =>
  obtain ⟨answer, kept⟩ := @mapSet_refines map c key value h small
  exact ⟨congrArg MapAnswer.status answer, kept⟩
 | get key => exact ⟨congrArg MapAnswer.value (mapGet_refines h small), h⟩
 | erase key =>
  obtain ⟨answer, kept⟩ := @mapErase_refines map c key h small
  exact ⟨congrArg MapAnswer.status answer, kept⟩

/-- Before each of the calls fewer than `2 ^ 32` keys are live. -/
def SmallBefore (c : Content) (calls : List MapCall) : Prop :=
 ∀ before call, before ++ [call] <+: calls → (c.run before).2.keys.card < 2 ^ 32

theorem SmallBefore.cons {call : MapCall} {calls : List MapCall}
  (small : SmallBefore c (call :: calls)) :
  c.keys.card < 2 ^ 32 ∧ SmallBefore (c.call call).2 calls := by
 constructor
 · exact small [] call (by simp)
 · intro before next hbefore
   exact small (call :: before) next (by simpa using hbefore)

theorem run_refines (calls : List MapCall) (h : Represents map c) (small : SmallBefore c calls) :
  (map.run calls).1 = (c.run calls).1 ∧ Represents (map.run calls).2 (c.run calls).2 := by
 induction calls generalizing map c with
 | nil => exact ⟨rfl, h⟩
 | cons call calls ih =>
  obtain ⟨now, later⟩ := small.cons
  obtain ⟨answer, kept⟩ := call_refines call h now
  obtain ⟨answers, final⟩ := ih kept later
  exact ⟨congrArg₂ List.cons answer answers, final⟩

theorem mapInit_represents : Represents mapInit ∅ where
 buckets := rfl
 placed := by
  intro i chain hi
  cases hi
 hashed := by
  intro node hnode
  cases hnode
 lists := rfl
 counted := rfl

/-- A map that never holds `2 ^ 32` keys answers like a finite map and counts
its keys. -/
theorem map_refines (calls : List MapCall)
    (small : ∀ before, before <+: calls → ((∅ : Content).run before).2.keys.card < 2 ^ 32) :
    (mapInit.run calls).1 = ((∅ : Content).run calls).1 ∧
      (mapInit.run calls).2.nodeSize.toNat = ((∅ : Content).run calls).2.keys.card := by
  obtain ⟨answers, final⟩ :=
    run_refines calls mapInit_represents fun before call h =>
      small before ((List.prefix_append before [call]).trans h)
  exact ⟨answers, final.nodeSize_toNat (small calls (List.prefix_refl calls))⟩

/-- A key is set, set again with another length, read, erased and read. -/
def sampleCalls : List MapCall :=
 [.set [97] [1, 2], .set [97] [3], .get [97], .erase [97], .get [97]]

theorem map_refines_sample : (mapInit.run sampleCalls).1 = ((∅ : Content).run sampleCalls).1 ∧
      (mapInit.run sampleCalls).2.nodeSize.toNat =
        ((∅ : Content).run sampleCalls).2.keys.card := by
  apply map_refines
  intro before h
  rw [← List.mem_inits] at h
  revert before
  decide

end Calls

section Overflow

/-- The low 32 bits of a number as a key of 32 characters. -/
def binaryKey (i : ℕ) : List UInt8 :=
 (List.range 32).map fun bit => if i.testBit bit then 98 else 97

/-- Calls that store one byte under each of the first `n` such keys. -/
def writes (n : ℕ) : List MapCall := (List.range n).map fun i => .set (binaryKey i) [0]

theorem binaryKey_injective {i j : ℕ} (hi : i < 2 ^ 32) (hj : j < 2 ^ 32)
  (h : binaryKey i = binaryKey j) : i = j := by
 apply Nat.eq_of_testBit_eq
 intro bit
 rcases Nat.lt_or_ge bit 32 with low | high
 · have same := List.map_inj_left.mp h bit (List.mem_range.mpr low)
   cases ibit : i.testBit bit <;> cases jbit : j.testBit bit <;> simp [ibit, jbit] at same ⊢
 · have wide : 2 ^ 32 ≤ 2 ^ bit := Nat.pow_le_pow_right (by decide) high
   rw [Nat.testBit_lt_two_pow (hi.trans_le wide), Nat.testBit_lt_two_pow (hj.trans_le wide)]

theorem binaryKey_notMem {n : ℕ} (hn : n < 2 ^ 32) :
  binaryKey n ∉ (Finset.range n).image binaryKey := by
 intro present
 obtain ⟨i, hi, same⟩ := Finset.mem_image.mp present
 have below := Finset.mem_range.mp hi
 have := binaryKey_injective (by omega) hn same
 omega

theorem Content.run_append (c : Content) (calls later : List MapCall) :
  (c.run (calls ++ later)).2 = ((c.run calls).2.run later).2 := by
 induction calls generalizing c with
 | nil => rfl
 | cons call calls ih => exact ih (c.call call).2

theorem Content.set_keys {c : Content} {i : ℕ} (absent : binaryKey i ∉ c.keys) :
  (c.set (binaryKey i) [0]).2 = c.insert (binaryKey i) [0] := by
 have none : c.lookup (binaryKey i) = none := by
  rw [Finmap.lookup_eq_none, ← Finmap.mem_keys]
  exact absent
 have small : ¬([(0 : UInt8)].length = 0 ∨ [(0 : UInt8)].length > 1000 ∨
   (binaryKey i).length > 1000) := by
  simp [binaryKey]
 rw [Content.set, if_neg small, none]

theorem writes_succ (n : ℕ) : writes (n + 1) = writes n ++ [.set (binaryKey n) [0]] := by
 simp [writes, List.range_succ]

theorem run_writes_keys {n : ℕ} (hn : n ≤ 2 ^ 32) :
  ((∅ : Content).run (writes n)).2.keys = (Finset.range n).image binaryKey := by
 induction n with
 | zero => rfl
 | succ n ih =>
  have before := ih (by omega)
  have absent := before ▸ binaryKey_notMem hn
  rw [writes_succ, Content.run_append]
  change (((∅ : Content).run (writes n)).2.set (binaryKey n) [0]).2.keys = _
  rw [Content.set_keys absent, Finset.range_add_one, Finset.image_insert, ← before]
  ext key
  simp [Finmap.mem_keys]

theorem run_writes_card {n : ℕ} (hn : n ≤ 2 ^ 32) :
  ((∅ : Content).run (writes n)).2.keys.card = n := by
 rw [run_writes_keys hn, Finset.card_image_of_injOn, Finset.card_range]
 intro i hi j hj same
 have ilow := Finset.mem_range.mp hi
 have jlow := Finset.mem_range.mp hj
 exact binaryKey_injective (by omega) (by omega) same

theorem run_writes_lookup {n i : ℕ} (hn : n ≤ 2 ^ 32) (hi : i < n) :
  ((∅ : Content).run (writes n)).2.lookup (binaryKey i) = some [0] := by
 induction n with
 | zero => omega
 | succ n ih =>
  have absent := run_writes_keys (Nat.le_of_lt hn) ▸ binaryKey_notMem hn
  rw [writes_succ, Content.run_append]
  change (((∅ : Content).run (writes n)).2.set (binaryKey n) [0]).2.lookup _ = _
  rw [Content.set_keys absent]
  rcases Nat.lt_succ_iff_lt_or_eq.mp hi with below | rfl
  · rw [Finmap.lookup_insert_of_ne]
    · exact ih (by omega) below
    · intro same
      have := binaryKey_injective (by omega) (by omega) same
      omega
  · exact Finmap.lookup_insert _

theorem writes_smallBefore {n : ℕ} (hn : n ≤ 2 ^ 32) : SmallBefore ∅ (writes n) := by
 intro before call hbefore
 have short := hbefore.length_le
 have first := List.prefix_iff_eq_take.mp ((List.prefix_append before [call]).trans hbefore)
 simp only [List.length_append, List.length_singleton, writes, List.length_map,
  List.length_range] at short
 have prefix_writes : before = writes before.length := by
  apply first.trans
  rw [writes, ← List.map_take, List.take_range, Nat.min_eq_left (by omega), writes]
 rw [prefix_writes, run_writes_card (by omega)]
 omega

/-- After `2 ^ 32` keys the counter is zero again, and a live key is not found. -/
theorem fullMap_finds_nothing :
    ((∅ : Content).run (writes (2 ^ 32))).2.lookup (binaryKey 0) = some [0] ∧
      mapGet (mapInit.run (writes (2 ^ 32))).2 (binaryKey 0) = none ∧
      ((∅ : Content).run (writes (2 ^ 32))).2.keys.card = 2 ^ 32 ∧
      (mapInit.run (writes (2 ^ 32))).2.nodeSize.toNat = 0 := by
  have represents := (run_refines _ mapInit_represents (writes_smallBefore le_rfl)).2
  have card := run_writes_card (n := 2 ^ 32) le_rfl
  have count : (mapInit.run (writes (2 ^ 32))).2.nodeSize = 0 := by
    rw [represents.counted, card]
    rfl
  refine ⟨run_writes_lookup le_rfl (by decide), ?_, card, ?_⟩
  · rw [mapGet, if_pos (Or.inl count)]
  · rw [count]
    rfl

end Overflow

end DriversFramework.HdfMap
