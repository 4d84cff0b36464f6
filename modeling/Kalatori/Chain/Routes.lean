import Kalatori.Chain.Assets
import Kalatori.Chain.Manager

/-!
# What the routes of an accepted configuration are

`ignite` accepts a configuration in which no currency is declared twice.  It does
not look at the names of the chains: the entry of a chain is overwritten by the
next chain of that name, with the channel of another tracker.

* `ignite_currency`: a currency is mapped to the name of the chain that declares it.
* `ignite_watch`: a name is mapped to a chain of that name.
* `route_declared`: if the names are distinct, a currency is routed to its chain.
-/

namespace Kalatori

variable {routes routes' : Routes} {index : ℕ} {chain : List Chain}

namespace Routes

/-- The declarations of one chain. -/
def declareAll (routes : Routes) (name : String) (currencies : List String) : Except Error Routes :=
  currencies.foldlM (fun routes currency => routes.declare currency name) routes

theorem declare_ok {currency name : String} (h : routes.declare currency name = .ok routes') :
    routes.currency_map.lookup currency = none ∧
      routes' = { routes with currency_map := routes.currency_map.insert currency name } := by
  unfold declare at h
  by_cases hsome : (routes.currency_map.lookup currency).isSome
  · rw [if_pos hsome] at h
    cases h
  · rw [if_neg hsome] at h
    exact ⟨by simpa using hsome, (Except.ok.inj h).symm⟩

/-- What declaring some currencies does. -/
structure Declared (routes : Routes) (name : String) (currencies : List String)
    (routes' : Routes) : Prop where
  nodup : currencies.Nodup
  fresh : ∀ currency ∈ currencies, routes.currency_map.lookup currency = none
  watch_chain : routes'.watch_chain = routes.watch_chain
  lookup : ∀ currency, routes'.currency_map.lookup currency =
    if currency ∈ currencies then some name else routes.currency_map.lookup currency

theorem declareAll_ok {name : String} {currencies : List String}
    (h : routes.declareAll name currencies = .ok routes') :
    Declared routes name currencies routes' := by
  induction currencies generalizing routes with
  | nil =>
    obtain rfl : routes = routes' := Except.ok.inj h
    exact ⟨List.nodup_nil, nofun, rfl, fun _ => by simp⟩
  | cons currency rest ih =>
    rw [declareAll, List.foldlM_cons] at h
    cases hd : routes.declare currency name with
    | error e =>
      rw [hd] at h
      cases h
    | ok routes₁ =>
      rw [hd] at h
      obtain ⟨hnone, rfl⟩ := declare_ok hd
      have hrest := ih h
      have hother : ∀ currency' ∈ rest, currency' ≠ currency := by
        rintro currency' hmem rfl
        have hfresh := hrest.fresh currency' hmem
        simp at hfresh
      refine ⟨List.nodup_cons.mpr ⟨fun hmem => hother currency hmem rfl, hrest.nodup⟩,
        fun currency' hmem => ?_, hrest.watch_chain, fun currency' => ?_⟩
      · rcases List.mem_cons.mp hmem with rfl | hmem
        · exact hnone
        · have hfresh := hrest.fresh currency' hmem
          rwa [AList.lookup_insert_ne (hother currency' hmem)] at hfresh
      · rw [hrest.lookup]
        by_cases hmem : currency' ∈ rest
        · simp [hmem]
        · by_cases hsame : currency' = currency
          · subst hsame
            simp [hmem]
          · simp [hmem, hsame, AList.lookup_insert_ne hsame]

/-- A turn of the loop over the chains, as declarations. -/
theorem add_ok {c : Chain} (h : routes.add index c = .ok routes') :
    Declared { routes with watch_chain := routes.watch_chain.insert c.name index } c.name
      c.declared routes' := by
  refine declareAll_ok ?_
  unfold add at h
  by_cases hempty : c.endpoints.isEmpty
  · rw [if_pos hempty] at h
    cases h
  · rw [if_neg hempty] at h
    rw [declareAll, Chain.declared]
    cases hnative : c.native_token with
    | none =>
      rw [hnative] at h
      simpa [List.foldlM_map] using h
    | some native =>
      rw [hnative] at h
      simpa [List.foldlM_map] using h

/-- What adding some chains does, if their first has the position `index`. -/
structure Added (routes : Routes) (index : ℕ) (chain : List Chain) (routes' : Routes) : Prop where
  fresh : ∀ c ∈ chain, ∀ currency ∈ c.declared, routes.currency_map.lookup currency = none
  nodup : ∀ c ∈ chain, c.declared.Nodup
  currency : ∀ c ∈ chain, ∀ currency ∈ c.declared,
    routes'.currency_map.lookup currency = some c.name
  currency_other : ∀ currency, (∀ c ∈ chain, currency ∉ c.declared) →
    routes'.currency_map.lookup currency = routes.currency_map.lookup currency
  watch : ∀ name position, routes'.watch_chain.lookup name = some position →
    (∃ k c, chain[k]? = some c ∧ c.name = name ∧ position = index + k) ∨
      routes.watch_chain.lookup name = some position
  watch_other : ∀ name, (∀ c ∈ chain, c.name ≠ name) →
    routes'.watch_chain.lookup name = routes.watch_chain.lookup name
  watch_own : (chain.map (·.name)).Nodup → ∀ k c, chain[k]? = some c →
    routes'.watch_chain.lookup c.name = some (index + k)

theorem Added.nil : Added routes index [] routes where
  fresh := nofun
  nodup := nofun
  currency := nofun
  currency_other := fun _ _ => rfl
  watch := fun _ _ h => .inr h
  watch_other := fun _ _ => rfl
  watch_own := nofun

theorem Added.cons {c : Chain} {routes₁ : Routes}
    (h : Declared { routes with watch_chain := routes.watch_chain.insert c.name index } c.name
      c.declared routes₁) (h' : Added routes₁ (index + 1) chain routes') :
    Added routes index (c :: chain) routes' where
  fresh := by
    intro c' hc' currency hcurrency
    rcases List.mem_cons.mp hc' with rfl | hc'
    · exact h.fresh currency hcurrency
    · have hnone := h'.fresh c' hc' currency hcurrency
      rw [h.lookup] at hnone
      split_ifs at hnone
      exact hnone
  nodup := by
    intro c' hc'
    rcases List.mem_cons.mp hc' with rfl | hc'
    · exact h.nodup
    · exact h'.nodup c' hc'
  currency := by
    intro c' hc' currency hcurrency
    rcases List.mem_cons.mp hc' with rfl | hc'
    · rw [h'.currency_other, h.lookup, if_pos hcurrency]
      -- A later chain does not declare the currency once more.
      intro c'' hc'' hagain
      have hnone := h'.fresh c'' hc'' currency hagain
      rw [h.lookup, if_pos hcurrency] at hnone
      cases hnone
    · exact h'.currency c' hc' currency hcurrency
  currency_other := by
    intro currency hother
    rw [h'.currency_other currency fun c' hc' => hother c' (List.mem_cons_of_mem _ hc'), h.lookup,
      if_neg (hother c List.mem_cons_self)]
  watch := by
    intro name position hl
    rcases h'.watch name position hl with ⟨k, c', hk, hname, rfl⟩ | hl
    · exact .inl ⟨k + 1, c', by simpa using hk, hname, by omega⟩
    · rw [h.watch_chain] at hl
      by_cases hname : name = c.name
      · subst hname
        rw [AList.lookup_insert] at hl
        exact .inl ⟨0, c, rfl, rfl, (Option.some.inj hl).symm⟩
      · rw [AList.lookup_insert_ne hname] at hl
        exact .inr hl
  watch_other := by
    intro name hother
    rw [h'.watch_other name fun c' hc' => hother c' (List.mem_cons_of_mem _ hc'), h.watch_chain,
      AList.lookup_insert_ne (Ne.symm (hother c List.mem_cons_self))]
  watch_own := by
    intro hnodup k c' hk
    obtain ⟨hfirst, hnodup⟩ := List.nodup_cons.mp hnodup
    cases k with
    | zero =>
      obtain rfl : c = c' := by simpa using hk
      rw [h'.watch_other, h.watch_chain, AList.lookup_insert]
      · rfl
      · rintro c' hc' hname
        exact hfirst (List.mem_map.mpr ⟨c', hc', hname⟩)
    | succ k =>
      rw [h'.watch_own hnodup k c' (by simpa using hk)]
      congr 1
      omega

theorem addAll_ok (h : routes.addAll index chain = .ok routes') :
    Added routes index chain routes' := by
  induction chain generalizing routes index with
  | nil =>
    obtain rfl : routes = routes' := Except.ok.inj h
    exact Added.nil
  | cons c rest ih =>
    rw [addAll] at h
    cases hadd : routes.add index c with
    | error e =>
      rw [hadd] at h
      cases h
    | ok routes₁ =>
      rw [hadd] at h
      exact Added.cons (add_ok hadd) (ih h)

/-- Every chain leaves a channel under its name. -/
theorem addAll_watched (h : routes.addAll index chain = .ok routes') {c : Chain}
    (hc : c ∈ chain) : (routes'.watch_chain.lookup c.name).isSome := by
  induction chain generalizing routes index c with
  | nil => cases hc
  | cons c₀ rest ih =>
    rw [addAll] at h
    cases hadd : routes.add index c₀ with
    | error e =>
      rw [hadd] at h
      cases h
    | ok routes₁ =>
      rw [hadd] at h
      by_cases hlater : ∃ c' ∈ rest, c'.name = c.name
      · obtain ⟨c', hc', hname⟩ := hlater
        exact hname ▸ ih h hc'
      · have hname : c = c₀ := (List.mem_cons.mp hc).resolve_right fun hc => hlater ⟨c, hc, rfl⟩
        rw [(addAll_ok h).watch_other c.name fun c' hc' heq => hlater ⟨c', hc', heq⟩,
          (add_ok hadd).watch_chain, hname, AList.lookup_insert]
        rfl

end Routes

/-- What an accepted configuration is turned into. -/
theorem ignite_ok (h : ignite chain = .ok routes) : Routes.Added ⟨∅, ∅⟩ 0 chain routes :=
  Routes.addAll_ok h

theorem ignite_currency (h : ignite chain = .ok routes) {c : Chain} (hc : c ∈ chain)
    {currency : String} (hcurrency : currency ∈ c.declared) :
    routes.currency_map.lookup currency = some c.name :=
  (ignite_ok h).currency c hc currency hcurrency

theorem ignite_watch (h : ignite chain = .ok routes) {name : String} {position : ℕ}
    (hl : routes.watch_chain.lookup name = some position) :
    ∃ c, chain[position]? = some c ∧ c.name = name := by
  rcases (ignite_ok h).watch name position hl with ⟨k, c, hk, hname, rfl⟩ | hl
  · exact ⟨c, by simpa using hk, hname⟩
  · simp at hl

/-- A currency is routed to a chain. -/
theorem chain_of_route (h : ignite chain = .ok routes) {currency : String}
    (hr : routes.route currency = .ok index) : ∃ c, chain[index]? = some c := by
  unfold Routes.route at hr
  split at hr
  · cases hr
  · split at hr
    · cases hr
    · next hl =>
      obtain ⟨c, hc, -⟩ := ignite_watch h hl
      obtain rfl := Except.ok.inj hr
      exact ⟨c, hc⟩

/-- The names of the chains are distinct. -/
def Distinct (chain : List Chain) : Prop := (chain.map (·.name)).Nodup

theorem route_declared (h : ignite chain = .ok routes) (hdistinct : Distinct chain) {c : Chain}
    (hc : chain[index]? = some c) {currency : String} (hcurrency : currency ∈ c.declared) :
    routes.route currency = .ok index := by
  have hname := ignite_currency h (List.mem_of_getElem? hc) hcurrency
  have hindex := (ignite_ok h).watch_own hdistinct index c hc
  rw [Nat.zero_add] at hindex
  simp [Routes.route, hname, hindex]

/-- Whatever the names are, a currency that is declared is routed. -/
theorem exists_route (h : ignite chain = .ok routes) {c : Chain} (hc : c ∈ chain)
    {currency : String} (hcurrency : currency ∈ c.declared) :
    ∃ index, routes.route currency = .ok index := by
  obtain ⟨index, hindex⟩ := Option.isSome_iff_exists.mp (Routes.addAll_watched h hc)
  exact ⟨index, by simp [Routes.route, ignite_currency h hc hcurrency, hindex]⟩

/-- A currency that is routed at all is routed to a chain of the name of one that declares it. -/
theorem declared_of_route (h : ignite chain = .ok routes) {currency : String}
    (hr : routes.route currency = .ok index) : ∃ c ∈ chain, currency ∈ c.declared := by
  by_contra hno
  have hother : ∀ c ∈ chain, currency ∉ c.declared := fun c hc hd => hno ⟨c, hc, hd⟩
  have hnone := (ignite_ok h).currency_other currency hother
  simp only [AList.lookup_empty] at hnone
  simp [Routes.route, hnone] at hr

/-- **The channels of all trackers are known exactly when the names are distinct.** -/
theorem watch_chain_complete_iff (h : ignite chain = .ok routes) :
    (∀ index < chain.length, ∃ name, ⟨name, index⟩ ∈ routes.watch_chain.entries) ↔
      Distinct chain := by
  constructor
  · intro hall
    have hown : ∀ index < chain.length, ∃ c, chain[index]? = some c ∧
        routes.watch_chain.lookup c.name = some index := by
      intro index hindex
      obtain ⟨name, hmem⟩ := hall index hindex
      have hl := AList.mem_lookup_iff.mpr hmem
      obtain ⟨c, hc, rfl⟩ := ignite_watch h hl
      exact ⟨c, hc, hl⟩
    refine List.nodup_iff_getElem?_ne_getElem?.mpr fun i j hlt hj hsame => ?_
    rw [List.length_map] at hj
    obtain ⟨c, hc, hl⟩ := hown i (hlt.trans hj)
    obtain ⟨c', hc', hl'⟩ := hown j hj
    have hname : c.name = c'.name := by simpa [hc, hc'] using hsame
    rw [hname, hl'] at hl
    have : j = i := Option.some.inj hl
    omega
  · intro hdistinct index hindex
    have hc : chain[index]? = some chain[index] := List.getElem?_eq_getElem hindex
    have hl := (ignite_ok h).watch_own hdistinct index _ hc
    rw [Nat.zero_add] at hl
    exact ⟨chain[index].name, AList.mem_lookup_iff.mp hl⟩

end Kalatori
