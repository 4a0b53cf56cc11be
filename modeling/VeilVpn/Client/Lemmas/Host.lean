import VeilVpn.Client.Impl.Host

namespace Client

structure SameConfig (h h' : Host) : Prop where
  interfaces : h'.interfaces = h.interfaces
  routes : h'.routes = h.routes
  rules : h'.rules = h.rules
  dns : h'.dns = h.dns

/--
`h` is `k` with interfaces that belong to a running `boringtun-cli`, and with routes through them.
-/
structure Over (k h : Host) : Prop where
  interfaces : ∀ n, h.interfaces n = k.interfaces n ∨ k.interfaces n = none ∧ h.isTunnel n = true
  routes : ∀ t d, h.routes t d = k.routes t d
    ∨ k.routes t d = none ∧ ∃ n, h.routes t d = some (.interface n) ∧ h.isTunnel n = true
  rules : h.rules = k.rules
  dns : h.dns = k.dns
  resolvconf : h.resolvconf = k.resolvconf

/--
There is no interface of a `boringtun-cli`.
-/
def Quiet (h : Host) : Prop :=
  ∀ n, h.isTunnel n = false

namespace SameConfig

variable {h h' h'' : Host}

theorem refl (h : Host) : SameConfig h h :=
  ⟨rfl, rfl, rfl, rfl⟩

theorem symm (hsame : SameConfig h h') : SameConfig h' h :=
  ⟨hsame.interfaces.symm, hsame.routes.symm, hsame.rules.symm, hsame.dns.symm⟩

theorem trans (hsame : SameConfig h h') (hsame' : SameConfig h' h'') : SameConfig h h'' :=
  ⟨hsame'.interfaces.trans hsame.interfaces, hsame'.routes.trans hsame.routes,
    hsame'.rules.trans hsame.rules, hsame'.dns.trans hsame.dns⟩

end SameConfig

section Pkill

variable {k h : Host} {n : String}

theorem isTunnel_eq_true (hn : h.isTunnel n = true)
    : ∃ i, h.interfaces n = some i ∧ i.boringtun = true := by
  rw [Host.isTunnel, Option.any_eq_true] at hn
  exact hn

theorem quiet_pkill (h : Host) : Quiet h.pkill := by
  intro n
  unfold Host.isTunnel Host.pkill Host.removeInterfaces
  dsimp only
  split
  . rfl
  . next hnot => exact Bool.eq_false_iff.mpr hnot

theorem Quiet.sameConfig_pkill (hh : Quiet h) : SameConfig h h.pkill := by
  refine ⟨?_, ?_, rfl, rfl⟩
  . funext n
    simp only [Host.pkill, Host.removeInterfaces, hh n, Bool.false_eq_true, if_false]
  . funext t d
    simp only [Host.pkill, Host.removeInterfaces, hh _, Bool.false_eq_true, if_false]
    split
    . next hroute => exact hroute.symm
    . rfl

theorem quiet_of_interfaces_pkill (hsame : h.pkill.interfaces = h.interfaces) : Quiet h := by
  intro n
  have hquiet := quiet_pkill h n
  unfold Host.isTunnel at *
  rw [hsame] at hquiet
  exact hquiet

end Pkill

namespace Over

variable {k h : Host} {iface : String} {table : Nat} {dest : Dest}

theorem interfaces_eq_none (hk : Quiet k) (hover : Over k h) (htunnel : h.isTunnel iface = true)
    : k.interfaces iface = none := by
  rcases hover.interfaces iface with hsame | ⟨hnone, _⟩
  . have hquiet := hk iface
    unfold Host.isTunnel at *
    rw [← hsame, htunnel] at hquiet
    simp at hquiet
  . exact hnone

theorem routes_eq_none (hk : Quiet k) (hover : Over k h) (htunnel : h.isTunnel iface = true)
    (hroute : h.routes table dest = some (.interface iface))
    : k.routes table dest = none := by
  rcases hover.routes table dest with hsame | ⟨hnone, _⟩
  . have hsome := k.isSome_interface table dest iface (hsame ▸ hroute)
    rw [interfaces_eq_none hk hover htunnel] at hsome
    simp at hsome
  . exact hnone

theorem sameConfig_pkill (hk : Quiet k) (hover : Over k h) : SameConfig k h.pkill := by
  refine ⟨?_, ?_, hover.rules, hover.dns⟩
  . funext n
    simp only [Host.pkill, Host.removeInterfaces]
    split
    . next htunnel => rw [interfaces_eq_none hk hover htunnel]
    . next hnot =>
      rcases hover.interfaces n with hsame | ⟨_, htunnel⟩
      . exact hsame
      . exact absurd htunnel hnot
  . funext t d
    simp only [Host.pkill, Host.removeInterfaces]
    split
    . next n hroute =>
      split
      . next htunnel => rw [routes_eq_none hk hover htunnel hroute]
      . next hnot =>
        rcases hover.routes t d with hsame | ⟨_, n', hroute', htunnel⟩
        . rw [← hsame, hroute]
        . rw [hroute] at hroute'
          cases hroute'
          exact absurd htunnel hnot
    . next hop hnot =>
      rcases hover.routes t d with hsame | ⟨_, n', hroute', _⟩
      . exact hsame
      . exact absurd hroute' (hnot n')

theorem isTunnel_setInterface (h : Host) (iface : String) (i : Interface) (n : String)
    : (h.setInterface iface i).isTunnel n = if n = iface then i.boringtun else h.isTunnel n := by
  simp only [Host.isTunnel, Host.setInterface, Function.update_apply]
  split
  . rfl
  . rfl

theorem setInterface (hover : Over k h) (hiface : k.interfaces iface = none) {i : Interface}
    (hi : i.boringtun = true)
    : Over k (h.setInterface iface i) := by
  refine ⟨?_, ?_, hover.rules, hover.dns, hover.resolvconf⟩
  . intro n
    rw [isTunnel_setInterface]
    simp only [Host.setInterface, Function.update_apply]
    split
    . next hn =>
      subst hn
      exact .inr ⟨hiface, hi⟩
    . exact hover.interfaces n
  . intro t d
    rcases hover.routes t d with hsame | ⟨hnone, n, hroute, htunnel⟩
    . exact .inl hsame
    . refine .inr ⟨hnone, n, hroute, ?_⟩
      rw [isTunnel_setInterface]
      split
      . exact hi
      . exact htunnel

theorem isTunnel_removeInterfaces (h : Host) (gone : String → Bool) (n : String)
    : (h.removeInterfaces gone).isTunnel n = (!gone n && h.isTunnel n) := by
  simp only [Host.isTunnel, Host.removeInterfaces]
  cases gone n <;> rfl

theorem removeInterface (hover : Over k h) (hiface : k.interfaces iface = none)
    : Over k (h.removeInterfaces (· = iface)) := by
  refine ⟨?_, ?_, hover.rules, hover.dns, hover.resolvconf⟩
  . intro n
    rw [isTunnel_removeInterfaces]
    simp only [Host.removeInterfaces, decide_eq_true_eq]
    split
    . next hn =>
      subst hn
      exact .inl hiface.symm
    . next hn =>
      rw [decide_eq_false hn]
      exact hover.interfaces n
  . intro t d
    simp only [isTunnel_removeInterfaces]
    simp only [Host.removeInterfaces, decide_eq_true_eq]
    split
    . next n hroute =>
      split
      . next hn =>
        subst hn
        rcases hover.routes t d with hsame | ⟨hnone, _⟩
        . have hsome := k.isSome_interface t d n (hsame ▸ hroute)
          rw [hiface] at hsome
          simp at hsome
        . exact .inl hnone.symm
      . next hn =>
        rcases hover.routes t d with hsame | ⟨hnone, n', hroute', htunnel⟩
        . exact .inl (hroute ▸ hsame)
        . rw [hroute] at hroute'
          cases hroute'
          exact .inr ⟨hnone, n, rfl, by simp [hn, htunnel]⟩
    . next hop hnot =>
      rcases hover.routes t d with hsame | ⟨_, n', hroute', _⟩
      . exact .inl hsame
      . exact absurd hroute' (hnot n')

theorem addInterfaceRoute (hover : Over k h) (htunnel : h.isTunnel iface = true)
    (hroute : h.routes table dest = none)
    (hhop : ∀ name, Nexthop.interface iface = .interface name → (h.interfaces name).isSome)
    : Over k (h.addRoute table dest (.interface iface) hhop) := by
  refine ⟨hover.interfaces, ?_, hover.rules, hover.dns, hover.resolvconf⟩
  intro t d
  simp only [Host.addRoute]
  split
  . next heq =>
    obtain ⟨rfl, rfl⟩ := heq
    refine .inr ⟨?_, iface, rfl, htunnel⟩
    rcases hover.routes t d with hsame | ⟨hnone, _⟩
    . rw [← hsame, hroute]
    . exact hnone
  . exact hover.routes t d

theorem addGatewayRoute (hover : Over k h) {addr : String}
    (hhop : ∀ name, Nexthop.gateway addr = .interface name → (k.interfaces name).isSome)
    (hhop' : ∀ name, Nexthop.gateway addr = .interface name → (h.interfaces name).isSome)
    : Over (k.addRoute table dest (.gateway addr) hhop) (h.addRoute table dest (.gateway addr) hhop') := by
  refine ⟨hover.interfaces, ?_, hover.rules, hover.dns, hover.resolvconf⟩
  intro t d
  simp only [Host.addRoute]
  split
  . exact .inl rfl
  . exact hover.routes t d

theorem removeTunnelRoutes (hover : Over k h) {gone : Nat → Dest → Bool}
    (hgone : ∀ t d, gone t d = true → k.routes t d = none)
    : Over k (h.removeRoutes gone) := by
  refine ⟨hover.interfaces, ?_, hover.rules, hover.dns, hover.resolvconf⟩
  intro t d
  simp only [Host.removeRoutes]
  split
  . next h => exact .inl (hgone t d h).symm
  . exact hover.routes t d

theorem removeRoutes (hover : Over k h) (gone : Nat → Dest → Bool)
    : Over (k.removeRoutes gone) (h.removeRoutes gone) := by
  refine ⟨hover.interfaces, ?_, hover.rules, hover.dns, hover.resolvconf⟩
  intro t d
  simp only [Host.removeRoutes]
  split
  . exact .inl rfl
  . exact hover.routes t d

theorem addRule (hover : Over k h) (rule : Rule) : Over (k.addRule rule) (h.addRule rule) := by
  refine ⟨hover.interfaces, hover.routes, ?_, hover.dns, hover.resolvconf⟩
  simp only [Host.addRule, hover.rules]

theorem deleteRule (hover : Over k h) (rule : Rule) : Over (k.deleteRule rule) (h.deleteRule rule) := by
  refine ⟨hover.interfaces, hover.routes, ?_, hover.dns, hover.resolvconf⟩
  simp only [Host.deleteRule, hover.rules]

theorem setDns (hover : Over k h) (dns : Dns)
    : Over (Command.setDns k dns) (Command.setDns h dns) :=
  ⟨hover.interfaces, hover.routes, hover.rules, rfl, hover.resolvconf⟩

theorem congr {k' : Host} (hover : Over k h) (hsame : SameConfig k k')
    (hresolvconf : k'.resolvconf = k.resolvconf)
    : Over k' h where
  interfaces n := by
    rw [hsame.interfaces]
    exact hover.interfaces n
  routes t d := by
    rw [hsame.routes]
    exact hover.routes t d
  rules := hover.rules.trans hsame.rules.symm
  dns := hover.dns.trans hsame.dns.symm
  resolvconf := hover.resolvconf.trans hresolvconf.symm

end Over

section Undo

variable {k : Host}

theorem sameConfig_addRoute {table : Nat} {dest : Dest} {hop : Nexthop}
    (hhop : ∀ name, hop = .interface name → (k.interfaces name).isSome)
    (hroute : k.routes table dest = none)
    : SameConfig ((k.addRoute table dest hop hhop).removeRoutes fun t d => t = table ∧ d = dest) k := by
  refine ⟨rfl, ?_, rfl, rfl⟩
  funext t d
  simp only [Host.removeRoutes, Host.addRoute, decide_eq_true_eq]
  split
  . next heq => rw [heq.1, heq.2, hroute]
  . rfl

end Undo

end Client
