import Custody.Daemon
import Custody.Proofs.Except
import Custody.Proofs.Keeper
import Custody.Proofs.Vault.Ledger
import Mathlib.Tactic.SplitIfs

/-!
How the program starts. It serves clients only from what was saved, or from nothing if nothing was saved; in
every other case, whatever hinders its reads included, it ends with a complaint and the disk stays as it is.
-/

namespace Custody

theorem Cost.usable_of_named {name : String} {cost : Cost} (named : Cost.named name = .ok cost) :
    Argon2id.flaw? cost = none := by
  unfold Cost.named at named
  split_ifs at named <;> (cases named; decide)

namespace Settings

variable {settings : Settings} {d : Disk} {plan : Disk.ReadPlan}

theorem load_valid {p : Path} (loaded : load d p plan = .ok settings) :
    settings.flaw? = none ∧ ∃ cost, settings.cost = .ok cost := by
  have valid : settings.validate = .ok () := by
    unfold load at loaded
    split at loaded
    · cases loaded
    · split at loaded
      · cases loaded
      · rename_i text _
        obtain ⟨s, -, checked⟩ := Except.bind_eq_ok.mp loaded
        obtain ⟨⟨⟩, valid, same⟩ := Except.bind_eq_ok.mp checked
        cases same
        exact valid
  unfold validate at valid
  split at valid
  · cases valid
  · rename_i flawless
    obtain ⟨cost, named, -⟩ := Except.map_eq_ok.mp valid
    exact ⟨flawless, cost, named⟩

theorem validate_ok {cost : Cost} (flawless : settings.flaw? = none) (priced : settings.cost = .ok cost) :
    settings.validate = .ok () := by
  simp only [validate, flawless, priced, Except.map]

theorem password_of_flawless (flawless : settings.flaw? = none) : settings.password ≠ [] := by
  intro none
  simp only [flaw?, none] at flawless
  split_ifs at flawless

/-- What is there to start from. Nothing hinders the read of the saved file, and either the file is missing and the
password is none that is too long to derive a key from, or it can be read and unlocked. -/
inductive Restores (settings : Settings) (d : Disk) (plan : Disk.ReadPlan) : Option Snapshot → Prop where
  | nothing {t : IoTrouble} (unhindered : plan ⟨settings.savePath⟩ = none)
      (missing : d.read ⟨settings.savePath⟩ = .error t) (kind : t.kind = .notFound)
      (short : settings.password.length ≤ Argon2id.longestPassword) : Restores settings d plan none
  | saved {b : Bytes} {s : Snapshot} {master : SecretKey} (unhindered : plan ⟨settings.savePath⟩ = none)
      (read : d.read ⟨settings.savePath⟩ = .ok b) (decoded : Archive.decode b settings.savePassword = .ok s)
      (unlocked : s.keyring.unlock settings.password = .ok master) : Restores settings d plan (some s)

namespace Restores

variable {saved : Option Snapshot}

theorem plan_eq_none (restores : settings.Restores d plan saved) : plan ⟨settings.savePath⟩ = none := by
  cases restores with
  | nothing unhindered => exact unhindered
  | saved unhindered => exact unhindered

theorem of_missing (restores : settings.Restores d plan saved) {t : IoTrouble}
    (missing : d.read ⟨settings.savePath⟩ = .error t) :
    saved = none ∧ t.kind = .notFound ∧ settings.password.length ≤ Argon2id.longestPassword := by
  cases restores with
  | nothing unhindered other kind short =>
    cases missing.symm.trans other
    exact ⟨rfl, kind, short⟩
  | saved unhindered read => cases missing.symm.trans read

theorem of_read (restores : settings.Restores d plan saved) {b : Bytes}
    (read : d.read ⟨settings.savePath⟩ = .ok b) : ∃ s master, saved = some s ∧
      Archive.decode b settings.savePassword = .ok s ∧ s.keyring.unlock settings.password = .ok master := by
  cases restores with
  | nothing unhindered missing => cases read.symm.trans missing
  | saved unhindered found decoded unlocked =>
    cases read.symm.trans found
    exact ⟨_, _, rfl, decoded, unlocked⟩

end Restores

end Settings

def Vault.StartsFrom (v : Vault) : Option Snapshot → Prop
  | none => v.store = .empty
  | some s => v.snapshot = s

namespace Daemon

variable {network : Network} {file : String} {d : Disk} {draw : Draw} {plan : Disk.ReadPlan} {settings : Settings}
  {cost : Cost}

theorem usable_of_cost (priced : settings.cost = .ok cost) : Argon2id.flaw? cost = none := by
  unfold Settings.cost at priced
  cases named : Cost.named settings.strength with
  | error e =>
    rw [named] at priced
    cases priced
  | ok c =>
    rw [named] at priced
    cases priced
    exact Cost.usable_of_named named

theorem create_ok (flawless : settings.flaw? = none) (priced : settings.cost = .ok cost)
    (short : settings.password.length ≤ Argon2id.longestPassword) (draw : Draw) :
    ∃ v, Vault.create settings.password cost draw = .ok v ∧ v.store = .empty := by
  have some := Settings.password_of_flawless flawless
  obtain ⟨master, derived⟩ := @Secret.exists_deriveKey _ draw.salt _ some (usable_of_cost priced) short
  rw [Vault.create_eq, derived]
  exact ⟨_, rfl, rfl⟩

theorem create_error (long : Argon2id.longestPassword < settings.password.length) (cost : Cost) (draw : Draw) :
    ∃ e, Vault.create settings.password cost draw = .error e := by
  obtain ⟨why, refused⟩ := Secret.deriveKey_of_long long draw.salt cost
  rw [Vault.create_eq, refused]
  exact ⟨_, rfl⟩

theorem serverStart_ok {address : Address} (valid : settings.validate = .ok ())
    (bound : network.listen settings.bind = .ok address) (keeper : Keeper) (held : Holdings) :
    ∃ server, Server.start network settings keeper held = .ok server ∧ server.held = held := by
  simp only [Server.start, valid, bound, Except.mapError, bind, Except.bind]
  exact ⟨_, rfl, rfl⟩

theorem serverStart_error {t : IoTrouble} (valid : settings.validate = .ok ())
    (unbound : network.listen settings.bind = .error t) (keeper : Keeper) (held : Holdings) :
    Server.start network settings keeper held = .error (.io t) := by
  simp only [Server.start, valid, unbound, Except.mapError, bind, Except.bind]

def keeperOf (settings : Settings) (cost : Cost) : Keeper := ⟨⟨settings.savePath⟩, settings.savePassword, cost⟩

def opening (settings : Settings) (cost : Cost) (d : Disk) (draw : Draw) (plan : Disk.ReadPlan) :
    Except Complaint Vault :=
  (restore settings (keeperOf settings cost) d plan).bind fun saved =>
    Complaint.about "Failed to open vault with the configured password"
      (Vault.load settings.password cost saved draw)

theorem start_eq (network : Network) (draw : Draw) (loaded : Settings.load d ⟨file⟩ plan = .ok settings)
    (priced : settings.cost = .ok cost) : start network file d draw plan =
      (opening settings cost d draw plan).bind fun vault => Complaint.about s!"Failed to bind {settings.bind}"
        (Server.start network settings (keeperOf settings cost) ⟨vault, d⟩) := by
  have keeper : settings.keeper = .ok (keeperOf settings cost) := by
    rw [Settings.keeper, priced]
    rfl
  simp only [start, loaded, priced, keeper, Complaint.about, Complaint.plainly, Except.mapError, bind, Except.bind,
    opening]
  cases restore settings (keeperOf settings cost) d plan with
  | error c => rfl
  | ok saved => rfl

theorem opening_unrestored {e : Failure} (failed : (keeperOf settings cost).restore d plan = .error e) (draw : Draw) :
    ∃ c, opening settings cost d draw plan = .error c := by
  unfold opening restore
  rw [failed]
  cases e with
  | authentication => exact ⟨_, rfl⟩
  | _ => exact ⟨_, rfl⟩

theorem opening_restored {saved : Option Snapshot} (restored : (keeperOf settings cost).restore d plan = .ok saved)
    (draw : Draw) : opening settings cost d draw plan =
      Complaint.about "Failed to open vault with the configured password"
        (Vault.load settings.password cost saved draw) := by
  unfold opening restore
  rw [restored]
  rfl

/-- What the program opens, if anything: a vault that starts from what it is to start from, and otherwise none. -/
def Opens (settings : Settings) (d : Disk) (plan : Disk.ReadPlan) (r : Except Complaint Vault) : Prop :=
  (∃ saved v, settings.Restores d plan saved ∧ v.StartsFrom saved ∧ r = .ok v) ∨
    (∀ saved, ¬settings.Restores d plan saved) ∧ ∃ c, r = .error c

theorem opens_missing {t : IoTrouble} (flawless : settings.flaw? = none) (priced : settings.cost = .ok cost)
    (unhindered : plan ⟨settings.savePath⟩ = none) (missing : d.read ⟨settings.savePath⟩ = .error t)
    (draw : Draw) : Opens settings d plan (opening settings cost d draw plan) := by
  by_cases kind : t.kind = .notFound
  · have restored : (keeperOf settings cost).restore d plan = .ok none := by
      simp only [Keeper.restore, keeperOf, Disk.readUnder, unhindered, missing, kind, if_true]
    rw [opening_restored restored, Vault.load]
    by_cases short : settings.password.length ≤ Argon2id.longestPassword
    · obtain ⟨v, made, empty⟩ := create_ok flawless priced short draw
      rw [made]
      exact .inl ⟨none, v, .nothing unhindered missing kind short, empty, rfl⟩
    · obtain ⟨e, failed⟩ := create_error (Nat.not_le.mp short) cost draw
      rw [failed]
      exact .inr ⟨fun saved restores => short (restores.of_missing missing).2.2, _, rfl⟩
  · have failed : (keeperOf settings cost).restore d plan = .error (.io t) := by
      simp only [Keeper.restore, keeperOf, Disk.readUnder, unhindered, missing, kind, if_false]
    exact .inr ⟨fun saved restores => kind (restores.of_missing missing).2.1, opening_unrestored failed draw⟩

theorem opens_saved {b : Bytes} (unhindered : plan ⟨settings.savePath⟩ = none)
    (read : d.read ⟨settings.savePath⟩ = .ok b) (cost : Cost) (draw : Draw) :
    Opens settings d plan (opening settings cost d draw plan) := by
  have restored : (keeperOf settings cost).restore d plan = (Archive.decode b settings.savePassword).map some := by
    simp only [Keeper.restore, keeperOf, Disk.readUnder, unhindered, read]
  cases decoded : Archive.decode b settings.savePassword with
  | error e =>
    rw [decoded] at restored
    refine .inr ⟨fun saved restores => ?_, opening_unrestored restored draw⟩
    obtain ⟨s, master, -, other, -⟩ := restores.of_read read
    cases decoded.symm.trans other
  | ok s =>
    rw [decoded] at restored
    rw [opening_restored restored, Vault.load, Vault.ofSnapshot]
    cases unlocked : s.keyring.unlock settings.password with
    | error e =>
      refine .inr ⟨fun saved restores => ?_, _, rfl⟩
      obtain ⟨t, master, -, other, opened⟩ := restores.of_read read
      cases decoded.symm.trans other
      cases unlocked.symm.trans opened
    | ok master =>
      exact .inl ⟨some s, ⟨s.keyring, Vault.entryKeyOf master, s.store⟩,
        .saved unhindered read decoded unlocked, rfl, rfl⟩

theorem opens (flawless : settings.flaw? = none) (priced : settings.cost = .ok cost) (d : Disk) (draw : Draw)
    (plan : Disk.ReadPlan) : Opens settings d plan (opening settings cost d draw plan) := by
  cases hindered : plan ⟨settings.savePath⟩ with
  | some hindrance =>
    have failed := Keeper.restore_hindered (k := keeperOf settings cost) hindered d
    refine .inr ⟨fun saved restores => ?_, opening_unrestored failed draw⟩
    cases hindered.symm.trans restores.plan_eq_none
  | none =>
    cases read : d.read ⟨settings.savePath⟩ with
    | error t => exact opens_missing flawless priced hindered read draw
    | ok b => exact opens_saved hindered read cost draw

theorem start_cases (network : Network) (loaded : Settings.load d ⟨file⟩ plan = .ok settings) (draw : Draw) :
    (∃ saved address server, settings.Restores d plan saved ∧ network.listen settings.bind = .ok address ∧
        start network file d draw plan = .ok server ∧ server.held.disk = d ∧ server.held.vault.StartsFrom saved) ∨
      ((∀ saved, ¬settings.Restores d plan saved) ∨ ∃ t, network.listen settings.bind = .error t) ∧
        ∃ c, start network file d draw plan = .error c := by
  obtain ⟨flawless, cost, priced⟩ := Settings.load_valid loaded
  have valid := Settings.validate_ok flawless priced
  rw [start_eq network draw loaded priced]
  obtain ⟨saved, v, restores, full, opened⟩ | ⟨nothing, c, failed⟩ := opens flawless priced d draw plan
  · rw [opened, Except.bind]
    cases bound : network.listen settings.bind with
    | ok address =>
      obtain ⟨server, serving, held⟩ := serverStart_ok valid bound (keeperOf settings cost) ⟨v, d⟩
      rw [serving]
      exact .inl ⟨saved, address, server, restores, rfl, rfl, held ▸ rfl, held ▸ full⟩
    | error t =>
      rw [serverStart_error valid bound]
      exact .inr ⟨.inr ⟨t, rfl⟩, _, rfl⟩
  · rw [failed]
    exact .inr ⟨.inl nothing, c, rfl⟩

/-- Where a server is started, the program serves with it to the end: what it sent is what that server sent, and the
disk that is left is the one that server left. -/
structure ServesBy (server : Server) (chance : Nat → Nat → Supply) (events : List Server.Event) (last : Supply)
    (ending : Ending) : Prop where
  served : ending.served = some (stop last (server.run chance events)).2
  disk : ending.disk = (stop last (server.run chance events)).2.held.disk
  complaint : ∀ c, ending.complaint = some c ↔ (stop last (server.run chance events)).1 = .error c

theorem servesBy_serve (server : Server) (chance : Nat → Nat → Supply) (events : List Server.Event) (last : Supply) :
    ServesBy server chance events last (serve chance events last server) := by
  obtain ⟨⟨r, s⟩, stopped⟩ : ∃ x, stop last (server.run chance events) = x := ⟨_, rfl⟩
  cases r with
  | ok u => constructor <;> simp [serve, stopped]
  | error c => constructor <;> simp [serve, stopped]

/-- With settings that were loaded, the program serves clients only if nothing was saved, and then from an empty
vault, or if what was saved can be read and unlocked, and then with all of it; it goes on with that server to its end.
In every other case, whatever hinders its reads, and if its address cannot be bound, it ends with a complaint, serves
nobody and leaves the disk as it was. -/
theorem fails_closed (loaded : Settings.load d ⟨file⟩ plan = .ok settings) (draw : Draw)
    (chance : Nat → Nat → Supply) (events : List Server.Event) (last : Supply) :
    (∀ server, start network file d draw plan = .ok server → server.held.disk = d ∧
        (∃ saved, settings.Restores d plan saved ∧ server.held.vault.StartsFrom saved) ∧
        ServesBy server chance events last (run network file d draw plan chance events last)) ∧
      ((∃ server, start network file d draw plan = .ok server) ↔
        (∃ saved, settings.Restores d plan saved) ∧ ∃ address, network.listen settings.bind = .ok address) ∧
      (((∀ saved, ¬settings.Restores d plan saved) ∨ ∃ t, network.listen settings.bind = .error t) →
        ∃ c, run network file d draw plan chance events last = ⟨some c, none, d⟩) := by
  obtain ⟨saved, address, server, restores, bound, started, disk, full⟩ | ⟨barred, c, failed⟩ :=
    start_cases network loaded draw
  · refine ⟨?_, ⟨fun _ => ⟨⟨saved, restores⟩, address, bound⟩, fun _ => ⟨server, started⟩⟩, ?_⟩
    · intro other same
      cases started.symm.trans same
      refine ⟨disk, ⟨saved, restores, full⟩, ?_⟩
      rw [run, started]
      exact servesBy_serve server chance events last
    · rintro (nothing | ⟨t, unbound⟩)
      · exact absurd restores (nothing saved)
      · cases bound.symm.trans unbound
  · refine ⟨?_, ⟨?_, ?_⟩, fun _ => ⟨c, by simp only [run, failed]⟩⟩
    · intro server started
      cases failed.symm.trans started
    · rintro ⟨server, started⟩
      cases failed.symm.trans started
    · rintro ⟨⟨saved, restores⟩, address, bound⟩
      rcases barred with nothing | ⟨t, unbound⟩
      · exact absurd restores (nothing saved)
      · cases bound.symm.trans unbound

def settled : Disk :=
  let text := "bind = '127.0.0.1:0'\npassword = 'p'\ndump_path = 'v'\ndump_password = 'q'"
  (Disk.empty .root).install ⟨"settings"⟩ (Bytes.ofText text)

def spoiled : Disk := settled.install ⟨"v"⟩ [1, 2, 3]

def denied : Disk.ReadPlan := fun p => if p.text = "v" then some ⟨.system .permissionDenied, by decide⟩ else none

theorem load_settled : ∃ settings, Settings.load settled ⟨"settings"⟩ = .ok settings ∧
    Settings.load settled ⟨"settings"⟩ denied = .ok settings ∧ Settings.load spoiled ⟨"settings"⟩ = .ok settings ∧
    settings.savePath = "v" ∧ settings.password.length ≤ Argon2id.longestPassword ∧
    ∃ address, Network.ready.listen settings.bind = .ok address := by
  have fields : (Settings.load settled ⟨"settings"⟩).toOption.map (fun s => (s.savePath, s.password, s.bind)) =
      some ("v", [112], "127.0.0.1:0") := by decide +kernel
  have bound : (Network.ready.listen "127.0.0.1:0").isOk = true := by decide +kernel
  have same : spoiled.read ⟨"settings"⟩ = settled.read ⟨"settings"⟩ := rfl
  cases loaded : Settings.load settled ⟨"settings"⟩ with
  | error e =>
    rw [loaded] at fields
    cases fields
  | ok settings =>
    rw [loaded] at fields
    obtain ⟨path, password, address⟩ : settings.savePath = "v" ∧ settings.password = [112] ∧
        settings.bind = "127.0.0.1:0" := by simpa [Except.toOption] using fields
    refine ⟨settings, rfl, loaded, ?_, path, password ▸ by decide, address ▸ Except.exists_of_isOk bound⟩
    simpa only [Settings.load, Disk.readUnder, same] using loaded

/-- Where nothing was saved a server starts. Where what was saved is no archive, or must not be read, the program ends
with a complaint and the disk stays as it was. -/
theorem fails_closed_spoiled :
    let supply : Supply := ⟨.plain, .plain, .smooth⟩
    let ends (d : Disk) (plan : Disk.ReadPlan) := run .ready "settings" d .plain plan (fun _ _ => supply) [] supply
    (∃ server, start .ready "settings" settled .plain = .ok server ∧ server.held.vault.store = .empty) ∧
      (∃ c, ends spoiled .smooth = ⟨some c, none, spoiled⟩) ∧ ∃ c, ends settled denied = ⟨some c, none, settled⟩ := by
  intro supply ends
  obtain ⟨settings, loaded, loaded', loaded'', path, short, bound⟩ := load_settled
  have missing : settled.read ⟨settings.savePath⟩ = .error (.system .notFound) := path ▸ rfl
  have found : spoiled.read ⟨settings.savePath⟩ = .ok [1, 2, 3] := path ▸ rfl
  have unread : Archive.decode [1, 2, 3] settings.savePassword = .error (.corrupt "dump header is truncated") := rfl
  obtain ⟨serves, starts, -⟩ := fails_closed loaded .plain (fun _ _ => supply) [] supply
  obtain ⟨server, started⟩ := starts.mpr ⟨⟨none, .nothing rfl missing rfl short⟩, bound⟩
  refine ⟨⟨server, started, ?_⟩, (fails_closed loaded'' .plain _ [] supply).2.2 (.inl ?_),
    (fails_closed loaded' .plain _ [] supply).2.2 (.inl ?_)⟩
  · obtain ⟨-, ⟨saved, restores, full⟩, -⟩ := serves server started
    obtain ⟨rfl, -, -⟩ := restores.of_missing missing
    exact full
  · intro saved restores
    obtain ⟨s, master, -, decoded, -⟩ := restores.of_read found
    cases unread.symm.trans decoded
  · have hindered : denied ⟨settings.savePath⟩ ≠ none := path ▸ nofun
    intro saved restores
    exact hindered restores.plan_eq_none

end Daemon

end Custody
