import LoopStorm.Mcp.Proxy

/-!
# Routing of tools

The catalog of the proxy: `connectUpstreams`, the handler of `tools/list`, and
where a `tools/call` of a listed name goes.

* `toolCatalog` — the tools of a server by the names they are shown under.
* `connectUpstreams`, `toolsList` — the servers, and the list the agent sees.
* `Routed` — the listed names are distinct, and an allowed call of one goes to
  the server and the tool it is listed for.
* `routed_iff` — **so it is exactly when no name is shown for two servers**: the
  proxy adds ids in front where it is told to, not where names collide.
-/

namespace LoopStorm.Mcp

open LoopStorm.Engine LoopStorm.Shim

/-! ## The catalog -/

/-- A tool, as a server declares it or the proxy lists it. -/
structure Tool (ν : Type) where
  name : Ts.Str
  description : Option Ts.Str
  inputSchema : Json Ts.Str ν

/-- `transport.type` of an upstream server. -/
inductive TransportType where
  | stdio
  | http
  | sse
  deriving DecidableEq

/-- An upstream server of the configuration. -/
structure UpstreamConfig where
  id : Ts.Str
  /-- `prefix` -/
  prefixed : Bool
  transportType : TransportType

/-- A connected server: its tools by the names they are shown under, in the order
of the map. -/
structure UpstreamClient (ν : Type) where
  config : UpstreamConfig
  tools : List (Ts.Str × Tool ν)

variable {ν : Type}

/-- `Map.prototype.set` -/
def mapSet (entries : List (Ts.Str × Tool ν)) (key : Ts.Str) (tool : Tool ν) :
    List (Ts.Str × Tool ν) :=
  if key ∈ entries.map (·.1) then
    entries.map (fun entry => if entry.1 = key then (key, tool) else entry)
  else entries ++ [(key, tool)]

/-- The name a tool is shown under. -/
def UpstreamConfig.displayName (config : UpstreamConfig) (toolName : Ts.Str) : Ts.Str :=
  if config.prefixed then config.id ++ Ts.lit "." ++ toolName else toolName

/-- The map of the tools of a server. -/
def toolCatalog (config : UpstreamConfig) (declared : List (Tool ν)) : List (Ts.Str × Tool ν) :=
  declared.foldl (fun tools tool => mapSet tools (config.displayName tool.name) tool) []

/-- The servers that are connected: those with a stdio transport. -/
def stdioUpstreams (upstreams : List (UpstreamConfig × List (Tool ν))) :
    List (UpstreamConfig × List (Tool ν)) :=
  upstreams.filter (fun u => u.1.transportType = .stdio)

/-- Connect to the servers, each with the tools it declares. -/
def connectUpstreams (upstreams : List (UpstreamConfig × List (Tool ν))) :
    List (UpstreamClient ν) :=
  (stdioUpstreams upstreams).map fun u => ⟨u.1, toolCatalog u.1 u.2⟩

/-- The handler of `tools/list`. -/
def toolsList (clients : List (UpstreamClient ν)) : List (Tool ν) :=
  clients.flatMap fun client =>
    client.tools.map fun entry => { entry.2 with name := entry.1 }

/-- `upstream.tools.has(toolName)` -/
def UpstreamClient.has (client : UpstreamClient ν) (toolName : Ts.Str) : Bool :=
  client.tools.any (·.1 == toolName)

/-- The server as the handler of `tools/call` sees it. -/
def UpstreamClient.upstream (client : UpstreamClient ν) : Upstream where
  id := client.config.id
  prefixed := client.config.prefixed
  tools := client.tools.map (·.2.name)

/-- The configuration with the servers that are connected. -/
def ProxyConfig.connected (config : ProxyConfig) (clients : List (UpstreamClient ν)) :
    ProxyConfig :=
  { config with upstreams := clients.map (·.upstream) }

/-! ## What is claimed of it -/

section Routing

variable {F : Type} [NumberText ν] [Float64 F] [Sha256]

/-- The listed names are distinct, and an allowed call of a name goes to the
server it is listed for, under the tool's own name. -/
structure Routed (F : Type) [Float64 F] (config : ProxyConfig)
    (clients : List (UpstreamClient ν)) : Prop where
  names : ((toolsList clients).map (·.name)).Nodup
  calls : ∀ (k : Nat) (client : UpstreamClient ν) (displayName : Ts.Str) (tool : Tool ν),
    clients[k]? = some client → (displayName, tool) ∈ client.tools →
    clients.findIdx? (·.has displayName) = some k ∧
    ∀ (p : Proxy ν F) (i : Nat) (call : Call ν) (response : Shim.DecisionResponse),
      p.calls i = some call → call.params.name = displayName → call.request.isSome = true →
      p.engine.phase i = .resolved response → decisionResponseToMcpError response = none →
      p.result (config.connected clients) i =
        some (.forwarded client.upstream tool.name call.params.arguments)

/-- No tool of one server is shown under the name of a tool of another. -/
def NamesApart (upstreams : List (UpstreamConfig × List (Tool ν))) : Prop :=
  (stdioUpstreams upstreams).Pairwise fun u v =>
    ∀ s ∈ u.2, ∀ t ∈ v.2, u.1.displayName s.name ≠ v.1.displayName t.name

/-! ## Maps -/

omit [NumberText ν] [Sha256] in
theorem keys_mapSet (entries : List (Ts.Str × Tool ν)) (key : Ts.Str) (tool : Tool ν) :
    (mapSet entries key tool).map (·.1) =
      if key ∈ entries.map (·.1) then entries.map (·.1) else entries.map (·.1) ++ [key] := by
  unfold mapSet
  split
  · rw [List.map_map]
    refine List.map_congr_left fun entry _ => ?_
    show (if entry.1 = key then (key, tool) else entry).1 = entry.1
    split
    case isTrue h => exact h.symm
    case isFalse => rfl
  · rw [List.map_append, List.map_singleton]

/-- What a map of tools holds: each tool under the name it is shown under. -/
structure CatalogOf (config : UpstreamConfig) (declared : List (Tool ν))
    (tools : List (Ts.Str × Tool ν)) : Prop where
  nodup : (tools.map (·.1)).Nodup
  keys : ∀ key, key ∈ tools.map (·.1) ↔ ∃ tool ∈ declared, config.displayName tool.name = key
  named : ∀ entry ∈ tools, entry.1 = config.displayName entry.2.name

omit [NumberText ν] [Sha256] in
theorem CatalogOf.mapSet {config : UpstreamConfig} {declared : List (Tool ν)}
    {tools : List (Ts.Str × Tool ν)} (h : CatalogOf config declared tools) (tool : Tool ν) :
    CatalogOf config (declared ++ [tool])
      (mapSet tools (config.displayName tool.name) tool) := by
  refine ⟨?_, ?_, ?_⟩
  · rw [keys_mapSet]
    split
    · exact h.nodup
    case isFalse hnew =>
      refine List.nodup_append'.2 ⟨h.nodup, List.nodup_singleton _, ?_⟩
      exact List.disjoint_singleton.2 hnew
  · intro key
    rw [keys_mapSet]
    have hdeclared : (∃ t ∈ declared ++ [tool], config.displayName t.name = key) ↔
        key ∈ tools.map (·.1) ∨ key = config.displayName tool.name := by
      rw [h.keys]
      constructor
      · rintro ⟨t, ht, rfl⟩
        rcases List.mem_append.1 ht with ht | ht
        · exact .inl ⟨t, ht, rfl⟩
        · exact .inr (by rw [List.mem_singleton.1 ht])
      · rintro (⟨t, ht, rfl⟩ | rfl)
        · exact ⟨t, List.mem_append_left _ ht, rfl⟩
        · exact ⟨tool, List.mem_append_right _ (List.mem_singleton_self _), rfl⟩
    rw [hdeclared]
    split
    case isTrue hold =>
      exact ⟨.inl, fun hkey => hkey.elim id fun heq => heq ▸ hold⟩
    case isFalse => rw [List.mem_append, List.mem_singleton]
  · intro entry hentry
    unfold LoopStorm.Mcp.mapSet at hentry
    split at hentry
    · obtain ⟨old, hold, rfl⟩ := List.mem_map.1 hentry
      split
      · rfl
      · exact h.named old hold
    · rcases List.mem_append.1 hentry with hentry | hentry
      · exact h.named entry hentry
      · rw [List.mem_singleton.1 hentry]

omit [NumberText ν] [Sha256] in
theorem catalogOf_toolCatalog (config : UpstreamConfig) (declared : List (Tool ν)) :
    CatalogOf config declared (toolCatalog config declared) := by
  induction declared using List.reverseRecOn with
  | nil => exact ⟨List.nodup_nil, by simp [toolCatalog], by simp [toolCatalog]⟩
  | append_singleton declared tool ih =>
    rw [toolCatalog, List.foldl_append]
    exact ih.mapSet tool

/-! ## Listing and routing -/

omit [NumberText ν] [Sha256] in
theorem names_toolsList (clients : List (UpstreamClient ν)) :
    (toolsList clients).map (·.name) = clients.flatMap (fun client => client.tools.map (·.1)) := by
  rw [toolsList, List.map_flatMap]
  simp only [List.map_map]
  rfl

omit [NumberText ν] [Sha256] in
/-- The listed names are distinct when no two servers share one. -/
theorem nodup_toolsList_iff (upstreams : List (UpstreamConfig × List (Tool ν))) :
    ((toolsList (connectUpstreams upstreams)).map (·.name)).Nodup ↔ NamesApart upstreams := by
  rw [names_toolsList, connectUpstreams, List.flatMap_map, List.nodup_flatMap, NamesApart]
  have hpair (u v : UpstreamConfig × List (Tool ν)) :
      List.Disjoint ((toolCatalog u.1 u.2).map (·.1)) ((toolCatalog v.1 v.2).map (·.1)) ↔
        ∀ s ∈ u.2, ∀ t ∈ v.2, u.1.displayName s.name ≠ v.1.displayName t.name := by
    constructor
    · intro h s hs t ht heq
      exact h (((catalogOf_toolCatalog u.1 u.2).keys _).2 ⟨s, hs, rfl⟩)
        (((catalogOf_toolCatalog v.1 v.2).keys _).2 ⟨t, ht, heq.symm⟩)
    · intro h key hu hv
      obtain ⟨s, hs, rfl⟩ := ((catalogOf_toolCatalog u.1 u.2).keys key).1 hu
      obtain ⟨t, ht, heq⟩ := ((catalogOf_toolCatalog v.1 v.2).keys _).1 hv
      exact h s hs t ht heq.symm
  constructor
  · rintro ⟨-, h⟩
    exact h.imp fun {u v} huv => (hpair u v).1 huv
  · intro h
    exact ⟨fun u _ => (catalogOf_toolCatalog u.1 u.2).nodup,
      h.imp fun {u v} huv => (hpair u v).2 huv⟩

omit [NumberText ν] [Sha256] in
theorem mem_connectUpstreams {upstreams : List (UpstreamConfig × List (Tool ν))}
    {client : UpstreamClient ν} (h : client ∈ connectUpstreams upstreams) :
    ∃ declared, CatalogOf client.config declared client.tools := by
  obtain ⟨u, -, rfl⟩ := List.mem_map.1 h
  exact ⟨u.2, catalogOf_toolCatalog u.1 u.2⟩

omit [NumberText ν] [Sha256] in
/-- A server shows the names its map has. -/
theorem CatalogOf.shown {client : UpstreamClient ν} {declared : List (Tool ν)}
    (h : CatalogOf client.config declared client.tools) (toolName : Ts.Str) :
    (client.upstream.tools.map client.upstream.displayName).contains toolName =
      client.has toolName := by
  have hkeys : client.upstream.tools.map client.upstream.displayName =
      client.tools.map (·.1) := by
    rw [UpstreamClient.upstream, List.map_map]
    exact List.map_congr_left fun entry hentry => (h.named entry hentry).symm
  rw [hkeys, UpstreamClient.has, List.contains_eq_any_beq, List.any_map]
  simp only [Function.comp_def, BEq.comm]

omit [NumberText ν] [Sha256] in
/-- The name a tool is shown under is turned into its own again. -/
theorem originalToolName_displayName (client : UpstreamClient ν) (toolName : Ts.Str) :
    client.upstream.originalToolName (client.config.displayName toolName) = toolName := by
  unfold Upstream.originalToolName UpstreamConfig.displayName
  cases hprefixed : client.config.prefixed with
  | false => simp [UpstreamClient.upstream, hprefixed]
  | true =>
    have hlen : client.config.id.length + 1 = (client.config.id ++ Ts.lit ".").length := by
      rw [List.length_append]
      rfl
    simp only [UpstreamClient.upstream, hprefixed, if_true, hlen, List.drop_left]

omit [NumberText ν] [Sha256] in
/-- A name that only one server shows leads to it. -/
theorem findIdx?_has {upstreams : List (UpstreamConfig × List (Tool ν))}
    (h : ((toolsList (connectUpstreams upstreams)).map (·.name)).Nodup) {k : Nat}
    {client : UpstreamClient ν} {displayName : Ts.Str} {tool : Tool ν}
    (hk : (connectUpstreams upstreams)[k]? = some client)
    (hentry : (displayName, tool) ∈ client.tools) :
    (connectUpstreams upstreams).findIdx? (·.has displayName) = some k := by
  rw [names_toolsList, List.nodup_flatMap] at h
  obtain ⟨hlt, hget⟩ := List.getElem?_eq_some_iff.1 hk
  refine List.findIdx?_eq_some_iff_getElem.2 ⟨hlt, ?_, ?_⟩
  · rw [hget]
    exact List.any_eq_true.2 ⟨_, hentry, by simp⟩
  · intro j hj hhas
    obtain ⟨entry, hmem, heq⟩ := List.any_eq_true.1 hhas
    have hdisjoint := List.pairwise_iff_getElem.1 h.2 j k (by omega) hlt hj
    refine hdisjoint (List.mem_map_of_mem hmem) ?_
    rw [beq_iff_eq.1 heq, hget]
    exact List.mem_map_of_mem hentry

/-- **Listing and routing agree exactly when no name is shown for two
servers.** -/
theorem routed_iff (config : ProxyConfig) (upstreams : List (UpstreamConfig × List (Tool ν))) :
    Routed F config (connectUpstreams upstreams) ↔ NamesApart upstreams := by
  rw [← nodup_toolsList_iff]
  refine ⟨Routed.names, fun hnames => ⟨hnames, fun k client displayName tool hk hentry => ?_⟩⟩
  have hidx := findIdx?_has hnames hk hentry
  refine ⟨hidx, fun p i call response hcall hname hrequest hphase hallow => ?_⟩
  have hfind : (config.connected (connectUpstreams upstreams)).findUpstreamForTool displayName =
      some client.upstream := by
    obtain ⟨hlt, hhas, hbefore⟩ := List.findIdx?_eq_some_iff_getElem.1 hidx
    have hget := (List.getElem?_eq_some_iff.1 hk).2
    rw [ProxyConfig.findUpstreamForTool, ProxyConfig.connected, List.find?_map,
      Option.map_eq_some_iff]
    refine ⟨client, List.find?_eq_some_iff_getElem.2 ⟨?_, k, hlt, hget, fun j hj => ?_⟩, rfl⟩
    · obtain ⟨declared, hcatalog⟩ := mem_connectUpstreams (List.mem_of_getElem? hk)
      rw [hget] at hhas
      exact (hcatalog.shown displayName).trans hhas
    · obtain ⟨declared, hcatalog⟩ := mem_connectUpstreams
        (List.getElem_mem (l := connectUpstreams upstreams) (hj.trans hlt))
      have hnot := hbefore j hj
      rw [← hcatalog.shown displayName] at hnot
      simpa using hnot
  have hname' : displayName = client.config.displayName tool.name := by
    obtain ⟨declared, hcatalog⟩ := mem_connectUpstreams (List.mem_of_getElem? hk)
    exact hcatalog.named _ hentry
  have hnone : call.request.isNone = false := by
    rw [Option.isNone_eq_false_iff]
    exact hrequest
  simp only [Proxy.result, hcall, Option.bind_some, hnone, Bool.false_eq_true, if_false, hphase,
    hallow, hname, hfind]
  rw [hname', originalToolName_displayName]

end Routing

namespace Sample

/-- Two servers that both declare `read`, without their ids in front. -/
def twoReaders : List (UpstreamConfig × List (Tool ℤ)) :=
  [(⟨Ts.lit "github", false, .stdio⟩, [⟨Ts.lit "read", none, .null⟩]),
    (⟨Ts.lit "filesystem", false, .stdio⟩, [⟨Ts.lit "read", none, .null⟩])]

open Engine.Sample in
/-- The agent sees two tools of one name. -/
theorem read_listed_twice :
    ¬ ∀ (config : ProxyConfig) (upstreams : List (UpstreamConfig × List (Tool ℤ))),
        Routed ℚ config (connectUpstreams upstreams) := by
  intro h
  have hnodup := (h ⟨none, none, none, []⟩ twoReaders).names
  revert hnodup
  decide +kernel

end Sample

end LoopStorm.Mcp
