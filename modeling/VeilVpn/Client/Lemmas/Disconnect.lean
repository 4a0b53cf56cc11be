import VeilVpn.Client.Lemmas.Connect

namespace Client

structure Succeeds (env : Env) : Prop where
  permits : ∀ c, env.permits c = true
  dnsQuery : env.dnsQuery = .printed
  which : env.which = true
  spawnsResolvconf : env.spawnsResolvconf = .ok ()

/--
The name servers are addresses, so that there is no white space in them.
-/
def PlainServers (h : Host) : Prop :=
  ∀ service, ∀ server ∈ h.dns.servers service, Lines.Word server.toList

section Servers

variable {servers : List String}

theorem notMem_trim {c : Char} {text : List Char} (hc : c ∉ text) : c ∉ Text.trimChars text := by
  intro hmem
  apply hc
  rw [Text.trimChars, List.mem_reverse] at hmem
  have hback := List.dropWhile_subset _ hmem
  rw [List.mem_reverse] at hback
  exact List.dropWhile_subset _ hback

theorem notMem_write {lines : List (List Char)} {c : Char} (hc : c ≠ '\n')
    (hlines : ∀ line ∈ lines, c ∉ line)
    : c ∉ Lines.write lines := by
  intro hmem
  rw [Lines.write, List.mem_flatMap] at hmem
  obtain ⟨line, hline, hmem⟩ := hmem
  rw [List.mem_append, List.mem_singleton] at hmem
  rcases hmem with hmem | hmem
  . exact hlines line hline hmem
  . exact hc hmem

theorem message_eq
    : "There aren't any DNS Servers set on ".toList
        =
      "There aren't ".toList ++ ("any DNS Servers set".toList ++ " on ".toList) := by
  decide +kernel

theorem trim_displayDnsServers_nil (service : String)
    : Text.trimChars (displayDnsServers service [])
        =
      "There aren't any DNS Servers set on ".toList ++ (service.toList ++ ".".toList) := by
  have hdisplay : displayDnsServers service []
      = ("There aren't any DNS Servers set on ".toList ++ (service.toList ++ ".".toList)) ++ ['\n'] := by
    rw [displayDnsServers, if_pos List.isEmpty_nil, Lines.write, List.flatMap_singleton,
      String.toList_append, String.toList_append]
    simp only [List.append_assoc]
  rw [hdisplay]
  apply Lines.trim_append
  . have hhead : "There aren't any DNS Servers set on ".toList.head? = some 'T' := by decide +kernel
    rw [List.head?_append_of_ne_nil _ (by decide +kernel), hhead]
    intro c hc
    cases hc
    decide
  . have hlast : ".".toList.getLast? = some '.' := by decide +kernel
    rw [← List.append_assoc, List.getLast?_append_of_ne_nil _ (by decide +kernel), hlast]
    intro c hc
    cases hc
    decide
  . rw [message_eq]
    simp
  . decide

theorem parseDnsServers_of_infix {text : List Char}
    (htext : "any DNS Servers set".toList <:+: Text.trimChars text)
    : parseDnsServers text = [] := by
  unfold parseDnsServers
  dsimp only
  split
  . rfl
  . next hnot => exact absurd htext hnot

theorem parseDnsServers_of_notMem {text : List Char} (htext : ' ' ∉ text)
    : parseDnsServers text
        =
      (Lines.lines (Text.trimChars text)).map fun line => String.ofList (Text.trimChars line) := by
  unfold parseDnsServers
  dsimp only
  split
  . next hsublist =>
    have hspace : ' ' ∈ "any DNS Servers set".toList := by decide +kernel
    exact absurd (hsublist.subset hspace) (notMem_trim htext)
  . rfl

theorem parseDnsServers_displayDnsServers (service : String)
    (hservers : ∀ server ∈ servers, Lines.Word server.toList)
    : parseDnsServers (displayDnsServers service servers) = servers := by
  by_cases hempty : servers = []
  . subst hempty
    apply parseDnsServers_of_infix
    rw [trim_displayDnsServers_nil, message_eq, List.append_assoc, List.append_assoc]
    exact ⟨_, _, List.append_assoc ..⟩
  . have hwords : ∀ w ∈ servers.map String.toList, Lines.Word w := by
      intro w hw
      obtain ⟨server, hmem, rfl⟩ := List.mem_map.mp hw
      exact hservers server hmem
    have hdisplay : displayDnsServers service servers = Lines.write (servers.map String.toList) := by
      rw [displayDnsServers, if_neg]
      rw [List.isEmpty_iff]
      exact hempty
    have hid : ∀ server ∈ servers,
        ((fun line => String.ofList (Text.trimChars line)) ∘ String.toList) server = id server := by
      intro server hmem
      rw [Function.comp_apply, (hservers server hmem).trim_eq, String.ofList_toList, id]
    rw [hdisplay, parseDnsServers_of_notMem, Lines.lines_trim_write hwords, List.map_map,
      List.map_congr_left hid, List.map_id]
    . rw [ne_eq, List.map_eq_nil_iff]
      exact hempty
    . apply notMem_write (by decide)
      exact fun line hline => (hwords line hline).notMem (by decide)

end Servers

def vpnDns (p : Platform) (service : String)
    (resolvconf : Option ((String → Option String) → Option Bytes → Option Bytes)) (dns : Dns) : Dns :=
  match p with
  | .macos => { dns with servers := Function.update dns.servers service vpnServers }
  | .linux =>
    match resolvconf with
    | some render =>
      let records := Function.update dns.records resolvconfRecord (some vpnNameservers)
      { dns with records, resolvConf := render records dns.resolvConf }
    | none => { dns with resolvConf := some (Text.bytes ("# Set by vpntee\n" ++ vpnNameservers)) }
  | .other => dns

def restoredDns (original : OriginalDns) (dns : Dns) : Dns :=
  match original with
  | .macos service servers => { dns with servers := Function.update dns.servers service servers }
  | .linux backup => if backup.isEmpty then dns else { dns with resolvConf := some (Text.bytes backup) }
  | .other => dns

section Dns

variable {p : Platform} {env : Env} {k h h' : Host}

theorem command_of_succeeds (hsucceeds : Succeeds env) (c : Command) (h : Host)
    : command env c h = c.apply h := by
  rw [command, if_pos (hsucceeds.permits c)]

theorem setVpnDns_eq (hsucceeds : Succeeds env) {service : String}
    (hservice : p = .macos → getPrimaryNetworkService env = .ok service)
    : setVpnDns p env h = (.ok (), Command.setDns h (vpnDns p service h.resolvconf h.dns)) := by
  cases p with
  | macos =>
    rw [setVpnDns, hservice rfl]
    dsimp only
    rw [runSudo, command_of_succeeds hsucceeds]
    rfl
  | linux =>
    rw [setVpnDns]
    dsimp only
    rw [hsucceeds.which, hsucceeds.spawnsResolvconf, command_of_succeeds hsucceeds,
      command_of_succeeds hsucceeds]
    cases hrender : h.resolvconf with
    | none => rfl
    | some render =>
      simp [Command.apply, hrender, vpnDns]
  | other => rfl

theorem restoreDns_eq (hsucceeds : Succeeds env) (original : OriginalDns)
    : restoreDns env original h = Command.setDns h (restoredDns original h.dns) := by
  cases original with
  | macos service servers =>
    rw [restoreDns, command_of_succeeds hsucceeds]
    rfl
  | linux backup =>
    rw [restoreDns, command_of_succeeds hsucceeds, restoredDns]
    split
    . rfl
    . rfl
  | other => rfl

theorem saveOriginalDns_macos (hsucceeds : Succeeds env) {original : OriginalDns}
    (hsaved : saveOriginalDns .macos env h = .ok original)
    : ∃ service,
        getPrimaryNetworkService env = .ok service
          ∧
        original = .macos service (parseDnsServers (displayDnsServers service (h.dns.servers service))) := by
  unfold saveOriginalDns at hsaved
  cases hservice : getPrimaryNetworkService env with
  | error e => simp [hservice] at hsaved
  | ok service =>
    simp only [hservice, hsucceeds.dnsQuery] at hsaved
    cases hsaved
    exact ⟨service, rfl, rfl⟩

theorem restoredDns_macos {service : String} (dns : Dns)
    : restoredDns (.macos service (dns.servers service)) (vpnDns .macos service h.resolvconf dns) = dns := by
  simp [restoredDns, vpnDns]

/--
When `/etc/resolv.conf` and the records of resolvconf are as before.
-/
def RestoresResolvConf (h : Host) : Prop :=
  match h.resolvconf with
  | none => readResolvConf h.dns ≠ ""
  | some render =>
    h.dns.records resolvconfRecord = some vpnNameservers
      ∧ (readResolvConf h.dns ≠ "" ∨ render h.dns.records h.dns.resolvConf = h.dns.resolvConf)

theorem readResolvConf_of_bytes {dns : Dns} {text : String} (h : dns.resolvConf = some (Text.bytes text))
    : readResolvConf dns = text := by
  rw [readResolvConf, h, Option.bind_some, Text.fromUTF8_bytes, Option.getD_some]

theorem bytes_readResolvConf {dns : Dns} (hconf : readResolvConf dns ≠ "")
    : some (Text.bytes (readResolvConf dns)) = dns.resolvConf := by
  unfold readResolvConf at *
  cases hfile : dns.resolvConf with
  | none => simp [hfile] at hconf
  | some content =>
    rw [hfile, Option.bind_some] at hconf
    cases htext : Text.fromUTF8 content with
    | none => simp [htext] at hconf
    | some text => rw [Option.bind_some, htext, Option.getD_some, Text.eq_bytes_of_fromUTF8 htext]

theorem restoredDns_linux (backup : String) (dns : Dns)
    : restoredDns (.linux backup) dns
        =
      { dns with resolvConf := if backup = "" then dns.resolvConf else some (Text.bytes backup) } := by
  unfold restoredDns
  simp only [String.isEmpty_iff]
  split
  . rfl
  . rfl

theorem restoredDns_linux_iff (service : String)
    : restoredDns (.linux (readResolvConf h.dns)) (vpnDns .linux service h.resolvconf h.dns) = h.dns
        ↔
      RestoresResolvConf h := by
  unfold RestoresResolvConf
  rw [restoredDns_linux]
  generalize h.dns = dns
  obtain ⟨servers, conf, records⟩ := dns
  by_cases hconf : readResolvConf ⟨servers, conf, records⟩ = ""
  . cases h.resolvconf with
    | none =>
      simp only [vpnDns, hconf, if_true, Dns.mk.injEq, ne_eq, not_true_eq_false, iff_false]
      rintro ⟨_, hfile, _⟩
      rw [readResolvConf_of_bytes hfile.symm] at hconf
      exact absurd hconf (by decide +kernel)
    | some render =>
      simp only [vpnDns, hconf, if_true, Dns.mk.injEq, ne_eq, not_true_eq_false, false_or, true_and]
      constructor
      . rintro ⟨hresolv, hrecords⟩
        rw [hrecords] at hresolv
        refine ⟨?_, hresolv⟩
        rw [← hrecords, Function.update_self]
      . rintro ⟨hrecord, hresolv⟩
        rw [← hrecord, Function.update_eq_self]
        exact ⟨hresolv, rfl⟩
  . have hfile : some (Text.bytes (readResolvConf ⟨servers, conf, records⟩)) = conf :=
      bytes_readResolvConf hconf
    cases h.resolvconf with
    | none => simp [vpnDns, hconf, hfile]
    | some render =>
      simp only [vpnDns, if_neg hconf, hfile, Dns.mk.injEq, true_and]
      constructor
      . intro hrecords
        refine ⟨?_, .inl hconf⟩
        rw [← hrecords, Function.update_self]
      . rintro ⟨hrecord, _⟩
        rw [← hrecord, Function.update_eq_self]

end Dns

section Disconnect

variable {p : Platform} {env : Env} {serverIp gw : String} {l : Launch} {k h : Host} {s : System}

theorem Routed.setDns {iface : String} (hrouted : Routed p iface serverIp gw k h) (dns : Dns)
    : Routed p iface serverIp gw (Command.setDns k dns) (Command.setDns h dns) := by
  cases p with
  | macos => exact ⟨hrouted.base.setDns dns, hrouted.tunnel, hrouted.routes⟩
  | linux => exact ⟨hrouted.base.setDns dns, hrouted.tunnel, hrouted.routes⟩
  | other => exact hrouted

theorem Routed.interfaces_eq_none {iface : String} (hk : Quiet k)
    (hrouted : Routed p iface serverIp gw k h)
    : k.interfaces iface = none := by
  cases p with
  | macos =>
    have hquiet : Quiet (withServerRoute k serverIp gw) := hk
    have hnone := Over.interfaces_eq_none hquiet hrouted.base hrouted.tunnel
    exact hnone
  | linux =>
    have hquiet : Quiet ((k.addRule tunnelRule).addRule suppressRule) := hk
    have hnone := Over.interfaces_eq_none hquiet hrouted.base hrouted.tunnel
    exact hnone
  | other => exact hrouted.elim

theorem Routed.dns {iface : String} (hrouted : Routed p iface serverIp gw k h)
    : h.dns = k.dns ∧ h.resolvconf = k.resolvconf := by
  cases p with
  | macos => exact ⟨hrouted.base.dns, hrouted.base.resolvconf⟩
  | linux => exact ⟨hrouted.base.dns, hrouted.base.resolvconf⟩
  | other => exact hrouted.elim

theorem RoutingStarts.setDns {iface : String} (hstarts : RoutingStarts p env iface serverIp gw k) (dns : Dns)
    : RoutingStarts p env iface serverIp gw (Command.setDns k dns) := by
  cases p with
  | macos => exact hstarts
  | linux => exact hstarts
  | other => exact hstarts

theorem RoutingContinues.setDns {iface : String} (hcontinues : RoutingContinues p env iface k) (dns : Dns)
    : RoutingContinues p env iface (Command.setDns k dns) := by
  cases p with
  | macos => exact hcontinues
  | linux => exact hcontinues
  | other => exact hcontinues

theorem exists_service (hsucceeds : Succeeds env) {original : OriginalDns}
    (hsaved : saveOriginalDns p env h = .ok original)
    : ∃ service, p = .macos → getPrimaryNetworkService env = .ok service := by
  cases p with
  | macos =>
    obtain ⟨service, hservice, _⟩ := saveOriginalDns_macos hsucceeds hsaved
    exact ⟨service, fun _ => hservice⟩
  | linux => exact ⟨"", by simp⟩
  | other => exact ⟨"", by simp⟩

theorem Established.disconnect (hk : Quiet k) (hsucceeds : Succeeds env)
    (hestablished : Established p env serverIp l gw k s)
    : ∃ original service,
        saveOriginalDns p env k = .ok original
          ∧
        (p = .macos → getPrimaryNetworkService env = .ok service)
          ∧
        (VpnManager.disconnect p env ⟨s.ctx⟩ s.host).1 = .ok ()
          ∧
        (VpnManager.disconnect p env ⟨s.ctx⟩ s.host).2.1.ctx = none
          ∧
        SameConfig
          (unrouted p (Command.setDns k (restoredDns original (vpnDns p service k.resolvconf k.dns))))
          (VpnManager.disconnect p env ⟨s.ctx⟩ s.host).2.2 := by
  obtain ⟨original, hsaved, hctx⟩ := hestablished.ctx
  obtain ⟨h, hrouted, hset⟩ := hestablished.host
  obtain ⟨service, hservice⟩ := exists_service hsucceeds hsaved
  refine ⟨original, service, hsaved, hservice, ?_⟩
  rw [setVpnDns_eq hsucceeds hservice, hrouted.dns.1, hrouted.dns.2, Prod.mk.injEq] at hset
  rw [VpnManager.disconnect, hctx, ← hset.2]
  dsimp only
  rw [restoreDns_eq hsucceeds]
  refine ⟨rfl, rfl, ?_⟩
  let dns := restoredDns original (vpnDns p service k.resolvconf k.dns)
  have hiface := hrouted.interfaces_eq_none hk
  exact (hrouted.setDns dns).sameConfig_execute hk hiface
    (hestablished.starts.setDns dns) (hestablished.continues.setDns dns)

/--
When a connection can be undone: there were no tunnels that were killed as stale ones, and on Linux the
table of the tunnel was empty and the DNS configuration is one that can be restored.
-/
structure Restorable (p : Platform) (h : Host) : Prop where
  quiet : Quiet h
  routes : p = .linux → ∀ d, h.routes fwmark d = none
  dns : p = .linux → RestoresResolvConf h

theorem restoredDns_iff (hsucceeds : Succeeds env) (hservers : PlainServers h) {original : OriginalDns}
    {service : String} (hsaved : saveOriginalDns p env h = .ok original)
    (hservice : p = .macos → getPrimaryNetworkService env = .ok service)
    : restoredDns original (vpnDns p service h.resolvconf h.dns) = h.dns
        ↔
      (p = .linux → RestoresResolvConf h) := by
  cases p with
  | macos =>
    obtain ⟨service', hservice', rfl⟩ := saveOriginalDns_macos hsucceeds hsaved
    have hsame := (hservice rfl).symm.trans hservice'
    cases hsame
    rw [parseDnsServers_displayDnsServers service (hservers service), restoredDns_macos]
    simp
  | linux =>
    cases hsaved
    rw [restoredDns_linux_iff]
    simp
  | other =>
    cases hsaved
    simp [restoredDns, vpnDns]

theorem dns_unrouted : (unrouted p h).dns = h.dns := by
  cases p with
  | macos => rfl
  | linux => rfl
  | other => rfl

theorem sameConfig_unrouted_pkill_iff {dns : Dns}
    : SameConfig h (unrouted p (Command.setDns h.pkill dns))
        ↔
      Quiet h ∧ (p = .linux → ∀ d, h.routes fwmark d = none) ∧ dns = h.dns := by
  constructor
  . intro hsame
    have hinterfaces := hsame.interfaces
    rw [interfaces_unrouted] at hinterfaces
    have hdns := hsame.dns
    rw [dns_unrouted] at hdns
    refine ⟨quiet_of_interfaces_pkill hinterfaces, ?_, hdns⟩
    rintro rfl d
    have hroute := congrFun (congrFun hsame.routes fwmark) d
    simp only [unrouted, Host.removeRoutes, decide_true, if_true] at hroute
    exact hroute.symm
  . rintro ⟨hquiet, hroutes, rfl⟩
    have hpkill := hquiet.sameConfig_pkill
    have hsame : SameConfig h (Command.setDns h.pkill h.dns) :=
      ⟨hpkill.interfaces, hpkill.routes, hpkill.rules, rfl⟩
    refine hsame.trans (sameConfig_unrouted_iff.mpr fun hlinux d => ?_)
    rw [hsame.routes]
    exact hroutes hlinux d

theorem disconnect_undoes_connect_iff (p : Platform) (env : Env) (m : VpnManager) (serverIp : Option String)
    (h : Host) (info : ConnectedInfo) (hlists : Lists p env h.pkill) (hsucceeds : Succeeds env)
    (hservers : PlainServers h) (hok : (m.connect p env serverIp h).result = .ok info)
    : let outcome := m.connect p env serverIp h
      let after := outcome.manager.disconnect p env outcome.host
      after.1 = .ok () ∧ after.2.1.ctx = none ∧ (SameConfig h after.2.2 ↔ Restorable p h) := by
  obtain ⟨ctx⟩ := m
  cases ctx with
  | some ctx => cases hok
  | none =>
    have hspec : (connectSystem p env serverIp).Spec _ _ _ := connectSystem_spec hlists
    unfold VpnManager.connect at hok ⊢
    cases hrun : connectSystem p env serverIp ⟨none, h, .new, []⟩ with
    | mk r s =>
      rw [hrun] at hok
      dsimp only at hok
      rw [hok] at hrun
      obtain ⟨l, gw, _, hestablished⟩ := hspec.ok rfl hrun
      obtain ⟨original, service, hsaved, hservice, hresult, hctx, hsame⟩ :=
        hestablished.disconnect (quiet_pkill h) hsucceeds
      refine ⟨hresult, hctx, ?_⟩
      have hdns := restoredDns_iff hsucceeds hservers hsaved hservice
      constructor
      . intro hrestored
        obtain ⟨hquiet, hroutes, heq⟩ := sameConfig_unrouted_pkill_iff.mp (hrestored.trans hsame.symm)
        exact ⟨hquiet, hroutes, hdns.mp heq⟩
      . intro hrestorable
        exact (sameConfig_unrouted_pkill_iff.mpr ⟨hrestorable.quiet, hrestorable.routes,
          hdns.mpr hrestorable.dns⟩).trans hsame

end Disconnect

namespace Sample

def willing : Env :=
  { env .pkillBoringtun with permits := fun _ => true }

theorem succeeds_willing : Succeeds willing :=
  ⟨fun _ => rfl, rfl, rfl, rfl⟩

theorem plainServers_host : PlainServers host := by
  intro service server hserver
  cases hserver

def hostWithResolvconf : Host :=
  { host with
    resolvconf := some fun records conf =>
      if (records resolvconfRecord).isSome then (records resolvconfRecord).map Text.bytes else conf }

def connects (outcome : ConnectOutcome) : Bool :=
  match outcome.result with
  | .ok _ => true
  | .error _ => false

theorem result_of_connects {outcome : ConnectOutcome} (hconnects : connects outcome = true)
    : ∃ info, outcome.result = .ok info := by
  unfold connects at hconnects
  split at hconnects
  . next info hresult => exact ⟨info, hresult⟩
  . simp at hconnects

end Sample

/--
The record that was given to resolvconf is still there after the connection was ended.
-/
theorem exists_record_left
    : ∃ (p : Platform) (env : Env) (m : VpnManager) (serverIp : Option String) (h : Host)
        (info : ConnectedInfo),
        Lists p env h.pkill ∧ Succeeds env ∧ PlainServers h
          ∧ (m.connect p env serverIp h).result = .ok info
          ∧
        let outcome := m.connect p env serverIp h
        let after := outcome.manager.disconnect p env outcome.host
        h.dns.records resolvconfRecord = none ∧ (after.2.2.dns.records resolvconfRecord).isSome := by
  have hrun : Sample.connects (VpnManager.connect .linux Sample.willing ⟨none⟩ none
        Sample.hostWithResolvconf) = true
      ∧ (((VpnManager.connect .linux Sample.willing ⟨none⟩ none
        Sample.hostWithResolvconf).manager.disconnect .linux Sample.willing
          (VpnManager.connect .linux Sample.willing ⟨none⟩ none
            Sample.hostWithResolvconf).host).2.2.dns.records resolvconfRecord).isSome = true := by
    decide +kernel
  obtain ⟨info, hresult⟩ := Sample.result_of_connects hrun.1
  exact ⟨.linux, Sample.willing, ⟨none⟩, none, Sample.hostWithResolvconf, info,
    Sample.lists_env .pkillBoringtun, Sample.succeeds_willing, Sample.plainServers_host, hresult, rfl,
    hrun.2⟩

theorem disconnect_undoes_connect_iff_nameserver
    : let outcome := VpnManager.connect .linux Sample.willing ⟨none⟩ none Sample.host
      let after := outcome.manager.disconnect .linux Sample.willing outcome.host
      after.1 = .ok () ∧ SameConfig Sample.host after.2.2 := by
  have hrun : Sample.connects (VpnManager.connect .linux Sample.willing ⟨none⟩ none Sample.host) = true := by
    decide +kernel
  obtain ⟨info, hresult⟩ := Sample.result_of_connects hrun
  obtain ⟨hok, _, hiff⟩ := disconnect_undoes_connect_iff .linux Sample.willing ⟨none⟩ none Sample.host info
    (Sample.lists_env .pkillBoringtun) Sample.succeeds_willing Sample.plainServers_host hresult
  refine ⟨hok, hiff.mpr ⟨fun n => rfl, fun _ d => rfl, fun _ => ?_⟩⟩
  have hconf : readResolvConf Sample.host.dns ≠ "" := by
    rw [readResolvConf_of_bytes rfl]
    decide
  exact hconf

end Client
