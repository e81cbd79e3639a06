import DriversFramework.HcAstCopy

namespace DriversFramework.HcAst

open AstHeap

/-- A list of peers, each with what it is and what stands under it. -/
inductive Content where
 | nil
 | object (label : AstObject) (child next : Content)
 deriving DecidableEq

namespace Content

def append : Content → Content → Content
 | nil, other => other
 | object label child next, other => object label child (next.append other)

def has (name : Str) (type : ObjectType) : Content → Bool
 | nil => false
 | object label _ next => (label.name = name && label.type = type) || next.has name type

def modify (name : Str) (type : ObjectType) (f : Content → Content) : Content → Content
 | nil => nil
 | object label child next =>
  if label.name = name ∧ label.type = type then object label (f child) next
  else object label child (next.modify name type f)

/-- `own` with whatever it lacks of the other content; where both have a node, this holds
of what stands under it. -/
def deepUnion (own : Content) : Content → Content
 | nil => own
 | object label child next =>
  if own.has label.name label.type then
   if label.type = .confNode then
    (own.modify label.name label.type fun content => content.deepUnion child).deepUnion next
   else own.deepUnion next
  else (own.append (object label child nil)).deepUnion next

end Content

/-- The peers `os` have this content. -/
inductive Shows (h : AstHeap) : List ℕ → Content → Prop where
 | nil : Shows h [] .nil
 | object {o : ℕ} {os : List ℕ} {child next : Content} (down : Shows h (h.get o).children child)
   (peers : Shows h os next) : Shows h (o :: os) (.object (h.get o).copied child next)

namespace Shows

variable {h h' : AstHeap} {os : List ℕ} {content : Content}

theorem frame (hs : Shows h os content)
 (hsame : ∀ c ∈ os, ∀ o, Below h c o →
  (h'.get o).copied = (h.get o).copied ∧ (h'.get o).children = (h.get o).children) :
 Shows h' os content := by
 induction hs with
 | nil => exact .nil
 | @object o os child next _ _ ihDown ihPeers =>
  obtain ⟨hlabel, hchildren⟩ := hsame o List.mem_cons_self o (.refl h o)
  have down := ihDown fun c hc x hx =>
   hsame o List.mem_cons_self x ((Below.of_child hc).trans hx)
  rw [← hlabel]
  exact .object (by rw [hchildren]; exact down)
   (ihPeers fun c hc => hsame c (List.mem_cons_of_mem o hc))

theorem append {os' : List ℕ} {content' : Content} (hs : Shows h os content)
 (hs' : Shows h os' content') : Shows h (os ++ os') (content.append content') := by
 induction hs with
 | nil => exact hs'
 | object down _ _ ihPeers => exact .object down ihPeers

theorem exists_of_wellFormed (hw : WellFormed h) (os : List ℕ) : ∃ content, Shows h os content := by
 have peers : ∀ os : List ℕ, (∀ o ∈ os, ∃ content, Shows h (h.get o).children content) →
  ∃ content, Shows h os content := by
  intro os hos
  induction os with
  | nil => exact ⟨.nil, .nil⟩
  | cons o os ih =>
   obtain ⟨child, down⟩ := hos o List.mem_cons_self
   obtain ⟨next, hnext⟩ := ih fun x hx => hos x (List.mem_cons_of_mem o hx)
   exact ⟨_, .object down hnext⟩
 -- younger objects first
 have under : ∀ n o : ℕ, h.size - o ≤ n → ∃ content, Shows h (h.get o).children content := by
  intro n
  induction n with
  | zero =>
   intro o ho
   rw [get_of_size_le (by omega)]
   exact ⟨.nil, .nil⟩
  | succ n ih =>
   intro o ho
   refine peers _ fun c hc => ih c ?_
   have := hw.older hc
   omega
 exact peers os fun o _ => under _ o le_rfl

end Shows

def Named (h : AstHeap) (os : List ℕ) : Prop :=
 ∀ c ∈ os, (h.get c).type = .confNode ∨ (h.get c).type = .confTerm

theorem AstObject.copied_name {o : AstObject} (ht : o.type = .confNode ∨ o.type = .confTerm) :
 o.copied.name = o.name := by
 unfold copied
 rcases ht with ht | ht <;> rw [ht]

theorem named_iff {h : AstHeap} {name : Str} {type : ObjectType} {c : ℕ} :
 h.named name (some type) c = true ↔ (h.get c).name = name ∧ (h.get c).type = type := by
 simp only [named, Bool.and_eq_true, Bool.or_eq_true, decide_eq_true_eq, reduceCtorEq, false_or,
  Option.some.injEq]
 exact and_congr_right fun _ => eq_comm

theorem Shows.has_eq {h : AstHeap} {os : List ℕ} {content : Content} (hs : Shows h os content)
 (hn : Named h os) (name : Str) (type : ObjectType) :
 content.has name type = (os.find? (h.named name (some type))).isSome := by
 induction hs with
 | nil => rfl
 | @object o os child next _ _ _ ih =>
  have hrest := ih fun c hc => hn c (List.mem_cons_of_mem o hc)
  rw [Content.has, hrest, AstObject.copied_name (hn o List.mem_cons_self),
   AstObject.copied_type, List.find?_cons]
  by_cases hmatch : (h.get o).name = name ∧ (h.get o).type = type
  · rw [named_iff.mpr hmatch]
    simp [hmatch]
  · rw [Bool.eq_false_iff.mpr fun hit => hmatch (named_iff.mp hit)]
    rw [← Bool.decide_and, decide_eq_false hmatch]
    rfl

theorem Shows.modify {h h' : AstHeap} {os : List ℕ} {content : Content} {f : Content → Content}
 {name : Str} {type : ObjectType} {peer : ℕ} (hs : Shows h os content) (hn : Named h os)
 (hfound : os.find? (h.named name (some type)) = some peer)
 (hpeer : (h'.get peer).copied = (h.get peer).copied)
 (hunder : ∀ child, Shows h (h.get peer).children child →
  Shows h' (h'.get peer).children (f child))
 (hnodup : os.Nodup)
 (hother : ∀ c ∈ os, c ≠ peer → ∀ o, Below h c o →
  (h'.get o).copied = (h.get o).copied ∧ (h'.get o).children = (h.get o).children) :
 Shows h' os (content.modify name type f) := by
 induction hs with
 | nil => cases hfound
 | @object o os child next down peers _ ih =>
  obtain ⟨hnot, hnodup⟩ := List.nodup_cons.mp hnodup
  have hlabel := AstObject.copied_name (hn o List.mem_cons_self)
  rw [Content.modify, hlabel, AstObject.copied_type]
  rw [List.find?_cons] at hfound
  by_cases hmatch : (h.get o).name = name ∧ (h.get o).type = type
  · rw [named_iff.mpr hmatch] at hfound
    obtain rfl : peer = o := (Option.some.inj hfound).symm
    rw [if_pos hmatch, ← hpeer]
    refine .object (hunder child down) (peers.frame fun c hc => ?_)
    exact hother c (List.mem_cons_of_mem _ hc) fun heq => hnot (heq ▸ hc)
  rw [Bool.eq_false_iff.mpr fun hit => hmatch (named_iff.mp hit)] at hfound
  have hpeerMem := List.mem_of_find?_eq_some hfound
  have hne : o ≠ peer := fun heq => hnot (heq ▸ hpeerMem)
  rw [if_neg hmatch]
  have hsame := hother o List.mem_cons_self hne
  obtain ⟨hlabel', hchildren⟩ := hsame o (.refl h o)
  rw [← hlabel']
  refine .object ?_ (ih (fun c hc => hn c (List.mem_cons_of_mem o hc)) hfound hnodup
   fun c hc => hother c (List.mem_cons_of_mem o hc))
  rw [hchildren]
  exact down.frame fun c hc x hx => hsame x ((Below.of_child hc).trans hx)

theorem AstObject.copied_copied (o : AstObject) : o.copied.copied = o.copied := by
 unfold copied
 cases o.type <;> rfl

theorem AstObject.copied_setChildren (o : AstObject) (children : List ℕ) :
 (o.setChildren children).copied = o.copied := by
 unfold copied setChildren
 cases o.type <;> rfl

theorem AstObject.copied_setParent (o : AstObject) (parent : ℕ) :
 (o.setParent parent).copied = o.copied := by
 unfold copied setParent
 cases o.type <;> rfl

theorem Builds.shows {h h' : AstHeap} {dst : ℕ} {cs : List ℕ} (hrun : Builds h dst cs h') :
 ∀ {content : Content}, WellFormed h → dst < h.size → Suits h dst cs →
  (∀ c ∈ cs, ¬ Below h c dst) → Shows h cs content →
  ∃ news, (h'.get dst).children = (h.get dst).children ++ news ∧ Shows h' news content := by
 induction hrun with
 | @nil h dst =>
  intro content hw hd hs hapart hcs
  cases hcs
  exact ⟨[], (List.append_nil _).symm, .nil⟩
 | @cons h h₁ h' dst c cs innerRun restRun ihInner ihRest =>
  intro content hw hd hs hapart hcs
  cases hcs with
  | @object _ _ child next down peers =>
   have hlabel := AstObject.copied_children (h.get c)
   have hwAlloc := hw.alloc hlabel
   have hnew : h.size < (h.alloc (h.get c).copied).size := by
    rw [size_alloc]
    exact Nat.lt_succ_self _
   have inner := innerRun.built hwAlloc hnew (.inner hw c)
   have first := built_addChild hd (AstObject.copied_parent _) inner
    (by rw [AstObject.copied_type]; exact (hs c List.mem_cons_self).2)
   have rest := restRun.built first.wellFormed (hd.trans_le first.size_le) (hs.grown hd first)
   have hlt₁ : h.size < h₁.size := hnew.trans_le inner.size_le
   -- the copy of `c` shows the label of `c`, and under it what stands under `c`
   have downAlloc : Shows (h.alloc (h.get c).copied) (h.get c).children child := by
    refine down.frame fun x hx o hxo => ?_
    have ho := hxo.lt_size hw (hw.lt_size hx)
    rw [get_alloc_of_lt ho]
    exact ⟨rfl, rfl⟩
   obtain ⟨news, hnews, showsNews⟩ := ihInner hwAlloc hnew (.inner hw c) (fun x hx hxn => by
    cases hxn with
    | refl => exact Nat.lt_irrefl _ (hw.lt_size hx)
    | tail _ hc =>
     rw [alloc_children hlabel] at hc
     exact Nat.lt_irrefl _ (hw.lt_size hc)) downAlloc
   rw [get_alloc_new, hlabel, List.nil_append] at hnews
   have copyLabel : (h₁.get h.size).copied = (h.get c).copied := by
    obtain ⟨_, hgrown, -⟩ := inner.grown
    rw [hgrown, AstObject.copied_setChildren, get_alloc_new, AstObject.copied_copied]
   have shows₁ : Shows h₁ [h.size] (.object (h.get c).copied child .nil) := by
    rw [← copyLabel]
    exact .object (hnews ▸ showsNews) .nil
   -- linking it, and building the rest, leaves it alone
   have hmem : ∀ o, Below h₁ h.size o → o < h₁.size ∧ o ≠ dst := fun o ho =>
    ⟨ho.lt_size inner.wellFormed hlt₁, by
     have := ho.le inner.wellFormed
     omega⟩
   have link : Shows (h₁.addChild dst h.size) [h.size] (.object (h.get c).copied child .nil) := by
    refine shows₁.frame fun x hx o hxo => ?_
    rw [List.mem_singleton.mp hx] at hxo
    refine ⟨addChild_keep AstObject.copied AstObject.copied_setChildren
     AstObject.copied_setParent _ _ _ _, ?_⟩
    rw [addChild_children (hd.trans hlt₁), if_neg (hmem o hxo).2]
   have hnot : ∀ o, Below (h₁.addChild dst h.size) h.size o → o ≠ dst := fun o ho => by
    have := ho.le first.wellFormed
    omega
   have kept : Shows h' [h.size] (.object (h.get c).copied child .nil) := by
    refine link.frame fun x hx o hxo => ?_
    rw [List.mem_singleton.mp hx] at hxo
    rw [rest.frame (hxo.lt_size first.wellFormed (by rw [size_addChild]; exact hlt₁))
     (hnot o hxo)]
    exact ⟨rfl, rfl⟩
   -- the rest of the children
   have hold : ∀ x ∈ cs, x < h.size := fun x hx => (hs x (List.mem_cons_of_mem c hx)).1
   have peers₁ : Shows (h₁.addChild dst h.size) cs next := by
    refine peers.frame fun x hx o hxo => ?_
    have ho := hxo.lt_size hw (hold x hx)
    rw [first.frame ho fun heq => hapart x (List.mem_cons_of_mem c hx) (heq ▸ hxo)]
    exact ⟨rfl, rfl⟩
   obtain ⟨news', hnews', showsRest⟩ := ihRest first.wellFormed (hd.trans_le first.size_le)
    (hs.grown hd first) (fun x hx hxd => hapart x (List.mem_cons_of_mem c hx)
     (hxd.of_old first.wellFormed first.old hd)) peers₁
   refine ⟨h.size :: news', ?_, kept.append showsRest⟩
   have hdst : (h₁.get dst).children = (h.get dst).children := by
    rw [inner.frame (by rw [size_alloc]; omega) (by omega), get_alloc_of_lt hd]
   rw [hnews', addChild_children (hd.trans hlt₁), if_pos rfl, hdst, List.append_assoc]
   rfl

theorem named_children {h : AstHeap} (hw : WellFormed h) {a : ℕ}
 (ha : (h.get a).type = .confNode) : Named h (h.get a).children :=
 fun _ hc => (hw.holds hc).node_iff.mp ha

theorem Grows.shows {h h₁ : AstHeap} {touched : ℕ → Prop} {os : List ℕ} {content : Content}
 (hs : Shows h os content) (hw : WellFormed h) (hg : Grows h h₁ touched)
 (hos : ∀ c ∈ os, c < h.size) (hout : ∀ c ∈ os, ∀ o, Below h c o → ¬ touched o) :
 Shows h₁ os content :=
 hs.frame fun c hc o ho => by
  rw [hg.frame (ho.lt_size hw (hos c hc)) (hout c hc o ho)]
  exact ⟨rfl, rfl⟩

theorem AstObject.copied_of_fixed {o o' : AstObject} (hfixed : o'.fixed = o.fixed)
 (ht : o.type = .confNode) : o'.copied = o.copied := by
 simp only [fixed, Prod.mk.injEq] at hfixed
 obtain ⟨htype, hname, -, hnode, hpath, -⟩ := hfixed
 unfold copied
 rw [htype, ht, hname, hnode, hpath]

theorem Source.has_eq {h : AstHeap} {dst src c : ℕ} {rest : List ℕ} {own : Content}
 (hs : Source h dst src (c :: rest)) (hw : WellFormed h)
 (hown : Shows h (h.get dst).children own) :
 own.has (h.get c).copied.name (h.get c).copied.type =
  (h.lookupChild dst (h.get c).name (some (h.get c).type)).isSome := by
 rw [hown.has_eq (named_children hw hs.dst_node),
  AstObject.copied_name (named_children hw hs.src_node c (hs.mem List.mem_cons_self)),
  AstObject.copied_type]
 rfl

theorem Copies.shows {h h' : AstHeap} {dst : ℕ} {start : Option ℕ}
 (hrun : Copies false h dst start h') : ∀ {src : ℕ} {rest : List ℕ} {own base : Content},
 WellFormed h → Source h dst src rest → start = rest.head? → ¬ Below h src dst →
 ¬ Below h dst src → Shows h (h.get dst).children own → Shows h rest base →
 Shows h' (h'.get dst).children (own.deepUnion base) := by
 -- after a first child the rest of the source is what it was
 have keepRest : ∀ {h h₁ : AstHeap} {dst src c : ℕ} {rest : List ℕ} {next : Content},
  WellFormed h → Source h dst src (c :: rest) → ¬ Below h src dst → ¬ Below h dst src →
  Grows h h₁ (Below h dst) → Shows h rest next →
  Source h₁ dst src rest ∧ h₁.next c = rest.head? ∧ ¬ Below h₁ src dst ∧ ¬ Below h₁ dst src ∧
   Shows h₁ rest next := by
  intro h h₁ dst src c rest next hw hs hsd hds hg hnext
  obtain ⟨done, hsplit⟩ := hs.split
  have hsrc : (h₁.get src).children = done ++ c :: rest := by
   rw [hg.frame hs.src_lt hds, hsplit]
  refine ⟨⟨hs.dst_lt.trans_le hg.size_le, (hg.type hs.dst_lt).trans hs.dst_node,
   hs.src_lt.trans_le hg.size_le, (hg.type hs.src_lt).trans hs.src_node,
   ⟨done ++ [c], by rw [hsrc, List.append_assoc]; rfl⟩⟩, next_of_children hg.wellFormed hsrc,
   fun hb => hsd (hg.below_old hs.dst_lt hb), fun hb => hds (hg.below_old hs.src_lt hb),
   Grows.shows hnext hw hg (fun x hx => hw.lt_size (hs.mem (List.mem_cons_of_mem c hx)))
    fun x hx o hxo hdo => ?_⟩
  have hso := (Below.of_child (hs.mem (List.mem_cons_of_mem c hx))).trans hxo
  exact (Below.total hw hso hdo).elim hsd hds
 induction hrun with
 | done =>
  intro src rest own base hw hs hhead hsd hds hown hbase
  obtain rfl : rest = [] := List.head?_eq_none_iff.mp hhead.symm
  cases hbase
  exact hown
 | @build h h₁ h' dst c missing built restRun ih =>
  intro src rest own base hw hs hhead hsd hds hown hbase
  obtain ⟨rest, rfl⟩ : ∃ tail, rest = c :: tail := List.head?_eq_some_iff.mp hhead.symm
  cases hbase with
  | @object _ _ child next down peers =>
   have hb := built.built hw hs.dst_lt (hs.suits hw)
   have hg : Grows h h₁ (Below h dst) := (hb.grows hs.dst_node).mono (by
    rintro o rfl
    exact .refl h o)
   obtain ⟨news, hnews, showsNews⟩ := built.shows hw hs.dst_lt (hs.suits hw)
    (fun x hx hxd => by
     rw [List.mem_singleton.mp hx] at hxd
     exact hsd ((Below.of_child (hs.mem List.mem_cons_self)).trans hxd)) (.object down .nil)
   have hown₁ : Shows h₁ (h.get dst).children own := hown.frame fun x hx o hxo => by
    have := hw.older hx
    have := hxo.le hw
    rw [hb.frame (hxo.lt_size hw (hw.lt_size hx)) (by omega)]
    exact ⟨rfl, rfl⟩
   obtain ⟨hs₁, hnext, hsd₁, hds₁, peers₁⟩ := keepRest hw hs hsd hds hg peers
   have hrest := ih hg.wellFormed hs₁ hnext hsd₁ hds₁
    (by rw [hnews]; exact hown₁.append showsNews) peers₁
   rw [Content.deepUnion, hs.has_eq hw hown, missing]
   exact hrest
 | @node h h₁ h' dst c peer found isNode innerRun restRun ihInner ihRest =>
  intro src rest own base hw hs hhead hsd hds hown hbase
  obtain ⟨rest, rfl⟩ : ∃ tail, rest = c :: tail := List.head?_eq_some_iff.mp hhead.symm
  cases hbase with
  | @object _ _ child next down peers =>
   have hsInner := hs.inner hw found isNode
   have hpeer := peer_mem found
   have hsrc : Below h src c := .of_child (hs.mem List.mem_cons_self)
   have hdst : Below h dst peer := .of_child hpeer
   have hcp : ¬ Below h c peer := fun hb => (Below.total hw (hsrc.trans hb) hdst).elim hsd hds
   have hpc : ¬ Below h peer c := fun hb => (Below.total hw hsrc (hdst.trans hb)).elim hsd hds
   have hg := innerRun.grows hw hsInner rfl
   have hgDst : Grows h h₁ (Below h dst) := hg.mono hdst.trans
   have hpd : ¬ Below h peer dst := fun hb => by
    have := hb.le hw
    have := hw.older hpeer
    omega
   have hown₁ : Shows h₁ (h₁.get dst).children
    (own.modify (h.get c).name (h.get c).type fun content => content.deepUnion child) := by
    rw [hg.frame hs.dst_lt hpd]
    refine hown.modify (named_children hw hs.dst_node) found
     (AstObject.copied_of_fixed (hg.fixed hsInner.dst_lt) hsInner.dst_node)
     (fun own' hown' => ihInner hw hsInner rfl hcp hpc hown' down) (hw.nodup dst)
     fun x hx hne o hxo => ?_
    rw [hg.frame (hxo.lt_size hw (hw.lt_size hx)) fun hpo =>
     hne (Below.eq_of_siblings hw hx hpeer hxo hpo)]
    exact ⟨rfl, rfl⟩
   obtain ⟨hs₁, hnext, hsd₁, hds₁, peers₁⟩ := keepRest hw hs hsd hds hgDst peers
   have hrest := ihRest hg.wellFormed hs₁ hnext hsd₁ hds₁ hown₁ peers₁
   have hname := AstObject.copied_name
    (named_children hw hs.src_node c (hs.mem List.mem_cons_self))
   rw [Content.deepUnion, hs.has_eq hw hown, found, AstObject.copied_type, hname]
   change Shows h' (h'.get dst).children (if (h.get c).type = .confNode then _ else _)
   rw [if_pos hsInner.src_node]
   exact hrest
 | @term h h₁ h' dst c peer found isTerm copied restRun ih =>
  intro src rest own base hw hs hhead hsd hds hown hbase
  obtain ⟨rest, rfl⟩ : ∃ tail, rest = c :: tail := List.head?_eq_some_iff.mp hhead.symm
  cases hbase with
  | @object _ _ child next down peers =>
   cases copied
   obtain ⟨hs₁, hnext, hsd₁, hds₁, peers₁⟩ := keepRest hw hs hsd hds (.refl hw) peers
   have hrest := ih hw hs₁ hnext hsd₁ hds₁ hown peers₁
   have htype : (h.get c).type = .confTerm :=
    (named_iff.mp (List.find?_some found)).2.symm.trans (of_decide_eq_true isTerm)
   rw [Content.deepUnion, hs.has_eq hw hown, found, AstObject.copied_type, htype]
   exact hrest
 | @value h h₁ h' dst c peer found notNode notTerm _ _ _ =>
  intro src rest own base hw hs hhead hsd hds hown hbase
  exact (hs.peer_not_value hw found notNode notTerm).elim

end DriversFramework.HcAst
