import DriversFramework.AudioControls
import DriversFramework.AudioSapmPower

namespace DriversFramework.AudioSapm

open AudioControls FiniteGraphs Relation RegisterFields

variable {n : ℕ}

structure KcontrolNew where
 name : Option String
 mixerCtrl : Option AudioMixerControl
 deriving DecidableEq

/-- The components of a card in the order of its list, with what adding a route looks at. -/
structure RouteComponents (n : ℕ) where
 name : Fin n → String
 component : Fin n → AudioSapmComponent
 kcontrolNews : Fin n → List KcontrolNew

structure AudioSapmRoute where
 sink : Option String
 control : Option String
 source : Option String
 deriving DecidableEq

def findEnds (source sink : String) : List (Fin n × String) → Option (Fin n) → Option (Fin n) →
  Option (Fin n) × Option (Fin n)
 | [], cptSource, cptSink => (cptSource, cptSink)
 | (c, name) :: rest, cptSource, cptSink =>
  if cptSource = none ∧ name = source then findEnds source sink rest (some c) cptSink
  else
   let cptSink := if cptSink = none ∧ name = sink then some c else cptSink
   if cptSource ≠ none ∧ cptSink ≠ none then (cptSource, cptSink)
   else findEnds source sink rest cptSource cptSink

def unconnected : Bool := false

/-- `read` gives the registers of the codec, or of the accessory if there is no codec. -/
def mixerSetPathStatus (read : Word → Option Word) (mixerCtrl : Option AudioMixerControl) :
  Option Bool :=
 match mixerCtrl with
 | none => some unconnected
 | some c =>
  match read c.reg with
  | none => some unconnected
  | some curValue =>
   if 32 ≤ c.shift.toNat then none
   else some (decide (c.invert ≠ 0 ∧ field curValue c.mask c.shift.toNat = 0 ∨
    ¬c.invert ≠ 0 ∧ field curValue c.mask c.shift.toNat ≠ 0))

/-- The types of sinks for which it is called are those of `AudioSapmConnectMixer`. -/
def audioSapmSetPathStatus (read : Word → Option Word) (type : AudioSapmType)
  (kcontrol : KcontrolNew) : Option Bool :=
 if type ∈ [.mixer, .analogSwitch, .mixerNamedCtrl] then mixerSetPathStatus read kcontrol.mixerCtrl
 else some true

def insertPath (card : AudioCard n) (source sink : Fin n) (connect : Bool) : AudioCard n :=
 { card with paths := ⟨source, sink, connect, none⟩ :: card.paths }

def audioSapmConnectMixer (components : RouteComponents n) (read : Word → Option Word)
  (card : AudioCard n) (source sink : Fin n) (controlName : String) :
  Option (HdfStatus × AudioCard n) :=
 match (components.kcontrolNews sink).find? fun kcontrol => kcontrol.name = some controlName with
 | none => some (.failure, card)
 | some kcontrol =>
  (audioSapmSetPathStatus read (components.component sink).sapmType kcontrol).map fun connect =>
   (.success, insertPath card source sink connect)

def muxType (type : AudioSapmType) : Bool := type ∈ [.mux, .virtMux, .valueMux]

def audioSampStaticOrDynamicPath (components : RouteComponents n) (read : Word → Option Word)
  (card : AudioCard n) (source sink : Fin n) (control : Option String) :
  Option (HdfStatus × AudioCard n) :=
 match control with
 | none => some (.success, insertPath card source sink true)
 | some controlName =>
  if muxType (components.component sink).sapmType then some (.success, card)
  else if AudioCard.mixerDevice (components.component sink).sapmType then
   audioSapmConnectMixer components read card source sink controlName
  else some (.success, insertPath card source sink true)

def audioSapmAddRoute (components : RouteComponents n) (read : Word → Option Word)
  (card : AudioCard n) (route : AudioSapmRoute) : Option (HdfStatus × AudioCard n) :=
 match route.source, route.sink with
 | some source, some sink =>
  match findEnds source sink ((List.finRange n).map fun c => (c, components.name c)) none none with
  | (some cptSource, some cptSink) =>
   audioSampStaticOrDynamicPath components read card cptSource cptSink route.control
  | _ => some (.failure, card)
 | _, _ => some (.failure, card)

/-- The routes up to the first that is refused. -/
def audioSapmAddRoutes (components : RouteComponents n) (read : Word → Option Word) :
  AudioCard n → List AudioSapmRoute → Option (HdfStatus × AudioCard n)
 | card, [] => some (.success, card)
 | card, route :: routes =>
  (audioSapmAddRoute components read card route).bind fun (ret, card) =>
   if ret = .success then audioSapmAddRoutes components read card routes
   else some (.failure, card)

/-- The components before any route. -/
def newCard (components : RouteComponents n) : AudioCard n where
 component := components.component
 paths := []
 power := fun _ => sapmPowerDown

/-- The recursion of `ConnectedInputEndPoint` and `ConnectedOutputEndPoint`, whose count wraps. -/
def countEndPoint (card : AudioCard n) (endPoint : AudioSapmType → Bool)
  (paths : Fin n → List (AudioSapmPath n)) (other : AudioSapmPath n → Fin n) :
  ℕ → Fin n → Option Word
 | 0, _ => none
 | fuel + 1, c =>
  if endPoint (card.component c).sapmType then some 1
  else (paths c).foldlM (fun count path =>
   if path.connect then (countEndPoint card endPoint paths other fuel (other path)).map
    fun more => count + more
   else some count) 0

def connectedInputEndPoint (card : AudioCard n) : ℕ → Fin n → Option Word :=
 countEndPoint card inputEndPoint card.sources (·.source)

def connectedOutputEndPoint (card : AudioCard n) : ℕ → Fin n → Option Word :=
 countEndPoint card outputEndPoint card.sinks (·.sink)

section Counting

variable {card : AudioCard n} {endPoint : AudioSapmType → Bool}
  {paths : Fin n → List (AudioSapmPath n)} {other : AudioSapmPath n → Fin n}

theorem foldlM_count (f : AudioSapmPath n → Option Word) (list : List (AudioSapmPath n))
  (start : Word) :
  list.foldlM (fun count path =>
   if path.connect then (f path).map fun more => count + more else some count) start ≠ none ↔
   ∀ path ∈ list, path.connect = true → f path ≠ none := by
 induction list generalizing start with
 | nil => exact iff_of_true (Option.some_ne_none start) fun path mem => by cases mem
 | cons path rest ih =>
  rw [List.foldlM_cons, List.forall_mem_cons]
  cases connect : path.connect with
  | false =>
   rw [if_neg Bool.false_ne_true]
   refine (ih start).trans (and_iff_right fun h => ?_).symm
   cases h
  | true =>
   rw [if_pos rfl, forall_prop_of_true rfl]
   cases f path with
   | none => exact iff_of_false (fun h => h rfl) fun h => h.1 rfl
   | some more => exact (ih (start + more)).trans (and_iff_right (Option.some_ne_none more)).symm

def Counts (card : AudioCard n) (endPoint : AudioSapmType → Bool)
  (paths : Fin n → List (AudioSapmPath n)) (other : AudioSapmPath n → Fin n) (c d : Fin n) : Prop :=
 endPoint (card.component c).sapmType = false ∧
  ∃ path ∈ paths c, path.connect = true ∧ other path = d

theorem countEndPoint_succ (fuel : ℕ) (c : Fin n) :
  countEndPoint card endPoint paths other (fuel + 1) c ≠ none ↔
   ∀ d, Counts card endPoint paths other c d →
    countEndPoint card endPoint paths other fuel d ≠ none := by
 rw [countEndPoint]
 cases end_ : endPoint (card.component c).sapmType with
 | true =>
  rw [if_pos rfl]
  refine iff_of_true (Option.some_ne_none _) fun d counts => ?_
  rw [counts.1] at end_
  cases end_
 | false =>
  rw [if_neg Bool.false_ne_true, foldlM_count
   fun path => countEndPoint card endPoint paths other fuel (other path)]
  constructor
  · rintro all d ⟨-, path, mem, connect, rfl⟩
    exact all path mem connect
  · exact fun all path mem connect => all _ ⟨end_, path, mem, connect, rfl⟩

theorem countEndPoint_returns_iff :
  (∀ c, ∃ fuel, countEndPoint card endPoint paths other fuel c ≠ none) ↔
   ∀ c, ¬TransGen (Counts card endPoint paths other) c c :=
 returns_iff_acyclic (fun _ h => h rfl) countEndPoint_succ

end Counting

section Accepted

variable {components : RouteComponents n} {read : Word → Option Word} {card t : AudioCard n}
  {route : AudioSapmRoute} {routes : List AudioSapmRoute}

def routeEnds (components : RouteComponents n) (route : AudioSapmRoute) : Option (Fin n × Fin n) :=
 match route.source, route.sink with
 | some source, some sink =>
  match findEnds source sink ((List.finRange n).map fun c => (c, components.name c)) none none with
  | (some cptSource, some cptSink) =>
   if route.control ≠ none ∧ muxType (components.component cptSink).sapmType then none
   else some (cptSource, cptSink)
  | _ => none
 | _, _ => none

def routePaths (components : RouteComponents n) (routes : List AudioSapmRoute) :
  List (Fin n × Fin n) :=
 (routes.filterMap (routeEnds components)).reverse

def ends (card : AudioCard n) : List (Fin n × Fin n) :=
 card.paths.map fun path => (path.source, path.sink)

theorem staticOrDynamic_ends {source sink : Fin n} {control : Option String}
  (run : audioSampStaticOrDynamicPath components read card source sink control =
   some (.success, t)) :
  t.component = card.component ∧ ends t =
   (if control ≠ none ∧ muxType (components.component sink).sapmType then []
    else [(source, sink)]) ++ ends card := by
 cases control with
 | none =>
  cases run
  rw [if_neg fun h => h.1 rfl]
  exact ⟨rfl, rfl⟩
 | some controlName =>
  unfold audioSampStaticOrDynamicPath at run
  cases mux : muxType (components.component sink).sapmType with
  | true =>
   simp only [mux, if_true] at run
   cases run
   rw [if_pos ⟨Option.some_ne_none _, rfl⟩]
   exact ⟨rfl, rfl⟩
  | false =>
   rw [if_neg fun h => Bool.false_ne_true h.2]
   simp only [mux, Bool.false_eq_true, if_false] at run
   split at run
   · unfold audioSapmConnectMixer at run
     split at run
     · cases run
     · obtain ⟨connect, -, same⟩ := Option.map_eq_some_iff.mp run
       cases same
       exact ⟨rfl, rfl⟩
   · cases run
     exact ⟨rfl, rfl⟩

theorem addRoute_ends (run : audioSapmAddRoute components read card route = some (.success, t)) :
  t.component = card.component ∧ ends t = (routeEnds components route).toList ++ ends card := by
 unfold audioSapmAddRoute at run
 unfold routeEnds
 cases source : route.source with
 | none =>
  rw [source] at run
  cases run
 | some source' =>
  cases sink : route.sink with
  | none =>
   rw [source, sink] at run
   cases run
  | some sink' =>
   simp only [source, sink] at run ⊢
   split at run
   · rename_i cptSource cptSink found
     have there := staticOrDynamic_ends run
     refine ⟨there.1, there.2.trans ?_⟩
     split
     · rfl
     · rfl
   · cases run

theorem addRoutes_ends (run : audioSapmAddRoutes components read card routes = some (.success, t)) :
  t.component = card.component ∧ ends t = routePaths components routes ++ ends card := by
 induction routes generalizing card with
 | nil =>
  cases run
  exact ⟨rfl, rfl⟩
 | cons route routes ih =>
  obtain ⟨⟨ret, u⟩, first, rest⟩ := Option.bind_eq_some_iff.mp run
  change (if ret = .success then _ else _) = _ at rest
  split at rest
  · rename_i success
    subst success
    obtain ⟨component, paths⟩ := addRoute_ends first
    obtain ⟨component', paths'⟩ := ih rest
    refine ⟨component'.trans component, ?_⟩
    rw [paths', paths, routePaths, routePaths, List.filterMap_cons]
    cases routeEnds components route with
    | none => rfl
    | some pair => simp
  · cases rest

/-- The card with the paths connected as it is given by their places. -/
def AudioCard.reconnect (card : AudioCard n) (connect : ℕ → Bool) : AudioCard n :=
 { card with paths := card.paths.mapIdx fun i path => { path with connect := connect i } }

/-- A component that is no end point counts on from the sources of its connected paths. -/
def InputStep (components : RouteComponents n) (routes : List AudioSapmRoute) (connect : ℕ → Bool)
  (c d : Fin n) : Prop :=
 inputEndPoint (components.component c).sapmType = false ∧
  ∃ i, (routePaths components routes)[i]? = some (d, c) ∧ connect i = true

def OutputStep (components : RouteComponents n) (routes : List AudioSapmRoute) (connect : ℕ → Bool)
  (c d : Fin n) : Prop :=
 outputEndPoint (components.component c).sapmType = false ∧
  ∃ i, (routePaths components routes)[i]? = some (c, d) ∧ connect i = true

theorem reconnect_path (accepted : audioSapmAddRoutes components read (newCard components) routes =
  some (.success, card)) (connect : ℕ → Bool) (a b : Fin n) :
  (∃ path ∈ (card.reconnect connect).paths, path.connect = true ∧ path.source = a ∧ path.sink = b) ↔
   ∃ i, (routePaths components routes)[i]? = some (a, b) ∧ connect i = true := by
 obtain ⟨-, paths⟩ := addRoutes_ends accepted
 rw [show ends (newCard components) = [] from rfl, List.append_nil] at paths
 rw [← paths]
 unfold ends AudioCard.reconnect
 constructor
 · rintro ⟨path, mem, connected, rfl, rfl⟩
   obtain ⟨i, there⟩ := List.mem_iff_getElem?.mp mem
   rw [List.getElem?_mapIdx] at there
   obtain ⟨old, before, rfl⟩ := Option.map_eq_some_iff.mp there
   exact ⟨i, by rw [List.getElem?_map, before]; rfl, connected⟩
 · rintro ⟨i, there, connected⟩
   rw [List.getElem?_map] at there
   obtain ⟨path, before, same⟩ := Option.map_eq_some_iff.mp there
   obtain ⟨rfl, rfl⟩ := Prod.mk.inj same
   refine ⟨{ path with connect := connect i }, List.mem_iff_getElem?.mpr ⟨i, ?_⟩, connected, rfl, rfl⟩
   rw [List.getElem?_mapIdx, before]
   rfl

theorem counts_input (accepted : audioSapmAddRoutes components read (newCard components) routes =
  some (.success, card)) (connect : ℕ → Bool) :
  Counts (card.reconnect connect) inputEndPoint (card.reconnect connect).sources (·.source) =
   InputStep components routes connect := by
 funext c d
 have path := reconnect_path accepted connect d c
 have component : (card.reconnect connect).component = components.component :=
  (addRoutes_ends accepted).1
 unfold Counts InputStep
 rw [component, ← path]
 apply propext
 refine and_congr_right fun _ => ?_
 constructor
 · rintro ⟨path, mem, connected, source⟩
   obtain ⟨mem, sink⟩ := List.mem_filter.mp mem
   exact ⟨path, mem, connected, source, of_decide_eq_true sink⟩
 · rintro ⟨path, mem, connected, source, sink⟩
   exact ⟨path, List.mem_filter.mpr ⟨mem, decide_eq_true sink⟩, connected, source⟩

theorem counts_output (accepted : audioSapmAddRoutes components read (newCard components) routes =
  some (.success, card)) (connect : ℕ → Bool) :
  Counts (card.reconnect connect) outputEndPoint (card.reconnect connect).sinks (·.sink) =
   OutputStep components routes connect := by
 funext c d
 have path := reconnect_path accepted connect c d
 have component : (card.reconnect connect).component = components.component :=
  (addRoutes_ends accepted).1
 unfold Counts OutputStep
 rw [component, ← path]
 apply propext
 refine and_congr_right fun _ => ?_
 constructor
 · rintro ⟨path, mem, connected, sink⟩
   obtain ⟨mem, source⟩ := List.mem_filter.mp mem
   exact ⟨path, mem, connected, of_decide_eq_true source, sink⟩
 · rintro ⟨path, mem, connected, source, sink⟩
   exact ⟨path, List.mem_filter.mpr ⟨mem, decide_eq_true source⟩, connected, sink⟩

/-- Both countings return from the component. -/
def Returns (card : AudioCard n) (c : Fin n) : Prop :=
 (∃ fuel, connectedInputEndPoint card fuel c ≠ none) ∧
  ∃ fuel, connectedOutputEndPoint card fuel c ≠ none

/-- For accepted routes and any connection of their paths, both countings return from every
component exactly if the connected paths make no cycle of components that are no end points. -/
theorem counting_returns_iff (components : RouteComponents n) (read : Word → Option Word)
    (routes : List AudioSapmRoute) {card : AudioCard n}
    (accepted : audioSapmAddRoutes components read (newCard components) routes =
      some (.success, card)) (connect : ℕ → Bool) :
    (∀ c, Returns (card.reconnect connect) c) ↔
      (∀ c, ¬TransGen (InputStep components routes connect) c c) ∧
        ∀ c, ¬TransGen (OutputStep components routes connect) c c := by
  unfold Returns
  rw [forall_and]
  refine and_congr ?_ ?_
  · rw [← counts_input accepted]
    exact countEndPoint_returns_iff
  · rw [← counts_output accepted]
    exact countEndPoint_returns_iff

end Accepted

/-- Two mixers that feed each other. -/
def mixers : RouteComponents 2 where
 name := fun c => if c = 0 then "a" else "b"
 component := fun _ => ⟨.mixer, -1, 0⟩
 kcontrolNews := fun _ => [⟨some "switch", some ⟨0, 1, 1, 0, 0, 0, 0, 0⟩⟩]

def mixerRoutes : List AudioSapmRoute :=
 [⟨some "b", some "switch", some "a"⟩, ⟨some "a", some "switch", some "b"⟩]

/-- The card after their routes, with both switches on. -/
def mixerCard : AudioCard 2 where
 component := fun _ => ⟨.mixer, -1, 0⟩
 paths := [⟨1, 0, true, none⟩, ⟨0, 1, true, none⟩]
 power := fun _ => 0

theorem mixerRoutes_accepted : audioSapmAddRoutes mixers (fun _ => some 1) (newCard mixers)
  mixerRoutes = some (.success, mixerCard) := by
 rfl

theorem counting_returns_mixers : (∀ c, Returns (mixerCard.reconnect fun _ => false) c) ↔
    (∀ c, ¬TransGen (InputStep mixers mixerRoutes fun _ => false) c c) ∧
      ∀ c, ¬TransGen (OutputStep mixers mixerRoutes fun _ => false) c c :=
  counting_returns_iff mixers (fun _ => some 1) mixerRoutes mixerRoutes_accepted fun _ => false

/-- The routes of the two mixers are accepted, and counting from either of them does not return. -/
theorem mixers_do_not_return : audioSapmAddRoutes mixers (fun _ => some 1) (newCard mixers)
    mixerRoutes = some (.success, mixerCard) ∧
      ∀ fuel c, connectedInputEndPoint mixerCard fuel c = none := by
  refine ⟨rfl, fun fuel => ?_⟩
  have feeds : ∀ c : Fin 2, Counts mixerCard inputEndPoint mixerCard.sources (·.source) c (1 - c) := by
    intro c
    refine ⟨rfl, ⟨1 - c, c, true, none⟩, ?_, rfl, rfl⟩
    revert c
    decide
  induction fuel with
  | zero => exact fun c => rfl
  | succ fuel ih =>
    intro c
    by_contra runs
    exact (countEndPoint_succ fuel c).mp runs (1 - c) (feeds c) (ih (1 - c))

end DriversFramework.AudioSapm
