import NetworkDiscovery.Library.Stoi
import NetworkDiscovery.ConnectLog
import NetworkDiscovery.DotEnvFile
import NetworkDiscovery.ServiceSimulation

/-! The start of the main program: it loads the settings, simulates services and
connects a listener. What stands in the file is what the clients connect with,
and the program goes on only if all of it is there and the port is a numeral. -/

namespace NetworkDiscovery.Startup
open ConnectLog (Broker)
open ServiceSimulation (startSimulation startSimulation_eq)

def serviceNames : List String :=
  ["ServiceA", "ServiceB", "ServiceC", "ServiceD", "ServiceE", "ServiceF"]

section
variable (env : DotEnv) (getenv : SystemEnvironment)

/-- `dotenv.get(key)`. Nothing catches what it throws. -/
def get (key : String) : Option String := (env.get getenv key).toOption

/-- `std::stoi(dotenv.get(key))` -/
def getPort (key : String) : Option Int32 :=
  (get env getenv key).bind fun text => (Stoi.stoi text.toList).toOption

/-- The arguments of `start_simulation`. Its services take the default vhost. -/
def simulationBroker : Option Broker := do
  let username ← get env getenv "RABBITMQ_USERNAME"
  let password ← get env getenv "RABBITMQ_PASSWORD"
  let host ← get env getenv "RABBITMQ_HOST"
  let port ← getPort env getenv "RABBITMQ_PORT"
  return ⟨host, port, username, password, ""⟩

def listenerBroker : Option Broker := do
  let host ← get env getenv "RABBITMQ_HOST"
  let port ← getPort env getenv "RABBITMQ_PORT"
  let username ← get env getenv "RABBITMQ_USERNAME"
  let password ← get env getenv "RABBITMQ_PASSWORD"
  let vhost ← get env getenv "RABBITMQ_VHOST"
  return ⟨host, port, username, password, vhost⟩

end

/-- The services that have been started, each with its name, its id and the broker that
it connects to, and the broker of the listener, without which the program ends. -/
structure Started where
  services : List ((String × ℕ) × Broker)
  listener : Option Broker

def main (file : Option String) (getenv : SystemEnvironment) : Option Started := do
  let dotenv := DotEnv.empty.load file
  let broker ← simulationBroker dotenv getenv
  let services ← startSimulation serviceNames
  return ⟨services.map fun service => (service, broker), listenerBroker dotenv getenv⟩

section
variable {env : DotEnv} {getenv : SystemEnvironment}

theorem get_eq_value? (key : String) : get env getenv key = env.value? getenv key := by
  rw [get, DotEnv.get_eq]
  cases env.value? getenv key <;> rfl

theorem getPort_eq_some_iff (key : String) (port : Int32) : getPort env getenv key = some port ↔
    ∃ text, env.value? getenv key = some text ∧ Stoi.Numeral text.toList port.toInt := by
  rw [getPort, get_eq_value?, Option.bind_eq_some_iff]
  refine exists_congr fun text => and_congr_right fun _ => ?_
  rw [← Stoi.stoi_eq_ok_iff]
  cases Stoi.stoi text.toList <;> simp [Except.toOption]

structure Tells (env : DotEnv) (getenv : SystemEnvironment) (broker : Broker) : Prop where
  username : env.value? getenv "RABBITMQ_USERNAME" = some broker.username
  password : env.value? getenv "RABBITMQ_PASSWORD" = some broker.password
  host : env.value? getenv "RABBITMQ_HOST" = some broker.host
  port : ∃ text, env.value? getenv "RABBITMQ_PORT" = some text ∧
    Stoi.Numeral text.toList broker.port.toInt

theorem simulationBroker_eq_some_iff (broker : Broker) :
    simulationBroker env getenv = some broker ↔ Tells env getenv broker ∧ broker.vhost = "" := by
  obtain ⟨host, port, username, password, vhost⟩ := broker
  simp only [simulationBroker, Option.bind_eq_bind, Option.pure_def, Option.bind_eq_some_iff,
    get_eq_value?, getPort_eq_some_iff, Option.some_inj]
  constructor
  · rintro ⟨_, first, _, second, _, third, _, fourth, ⟨⟩⟩
    exact ⟨⟨first, second, third, fourth⟩, rfl⟩
  · rintro ⟨⟨first, second, third, fourth⟩, rfl⟩
    exact ⟨_, first, _, second, _, third, _, fourth, rfl⟩

theorem listenerBroker_eq_some_iff (broker : Broker) :
    listenerBroker env getenv = some broker ↔
      Tells env getenv broker ∧ env.value? getenv "RABBITMQ_VHOST" = some broker.vhost := by
  obtain ⟨host, port, username, password, vhost⟩ := broker
  simp only [listenerBroker, Option.bind_eq_bind, Option.pure_def, Option.bind_eq_some_iff,
    get_eq_value?, getPort_eq_some_iff, Option.some_inj]
  constructor
  · rintro ⟨_, third, _, fourth, _, first, _, second, _, last, ⟨⟩⟩
    exact ⟨⟨first, second, third, fourth⟩, last⟩
  · rintro ⟨⟨first, second, third, fourth⟩, last⟩
    exact ⟨_, third, _, fourth, _, first, _, second, _, last, rfl⟩

def simulated : List (String × ℕ) := serviceNames ×ˢ List.range 83

theorem main_eq_some_iff (file : Option String) (started : Started) :
    main file getenv = some started ↔
      ∃ broker, Tells (DotEnv.empty.load file) getenv broker ∧ broker.vhost = "" ∧
        started.services = simulated.map (fun service => (service, broker)) ∧
        started.listener = listenerBroker (DotEnv.empty.load file) getenv := by
  have services : startSimulation serviceNames = some simulated :=
    startSimulation_eq serviceNames (List.cons_ne_nil _ _) (by decide)
  simp only [main, services, Option.bind_eq_bind, Option.pure_def, Option.bind_some,
    Option.bind_eq_some_iff, simulationBroker_eq_some_iff, Option.some_inj]
  constructor
  · rintro ⟨broker, ⟨tells, vhost⟩, rfl⟩
    exact ⟨broker, tells, vhost, rfl, rfl⟩
  · rintro ⟨broker, tells, vhost, services, listener⟩
    refine ⟨broker, ⟨tells, vhost⟩, ?_⟩
    rw [← services, ← listener]

structure Describes (entries : List (String × String)) (broker : Broker) : Prop where
  username : entries.reverse.lookup "RABBITMQ_USERNAME" = some broker.username
  password : entries.reverse.lookup "RABBITMQ_PASSWORD" = some broker.password
  host : entries.reverse.lookup "RABBITMQ_HOST" = some broker.host
  port : ∃ text, entries.reverse.lookup "RABBITMQ_PORT" = some text ∧
    Stoi.Numeral text.toList broker.port.toInt
  vhost : entries.reverse.lookup "RABBITMQ_VHOST" = some broker.vhost

/-- The broker that is written to the file is the one that all clients connect to, but
the services without the vhost. Other lines and the system's variables do not matter. -/
theorem main_reads_back (entries : List (String × String)) (writable : DotEnv.Writable entries)
    (text : String)
    (file : text = DotEnv.fileText entries ∨ text ++ "\n" = DotEnv.fileText entries)
    (broker : Broker) (describes : Describes entries broker) (getenv : SystemEnvironment) :
    main (some text) getenv = some ⟨simulated.map fun service =>
      (service, { broker with vhost := "" }), some broker⟩ := by
  have loaded := DotEnv.load_eq_assignAll .empty entries writable text file
  have value {key value : String} (last : entries.reverse.lookup key = some value) :
      (DotEnv.empty.load (some text)).value? getenv key = some value := by
    rw [DotEnv.value?, loaded, DotEnv.find_assignAll, last]
    rfl
  obtain ⟨port, last, numeral⟩ := describes.port
  have username := value describes.username
  have password := value describes.password
  have host := value describes.host
  rw [main_eq_some_iff]
  refine ⟨{ broker with vhost := "" }, ⟨username, password, host, port, value last, numeral⟩, rfl,
    rfl, Eq.symm ?_⟩
  rw [listenerBroker_eq_some_iff]
  exact ⟨⟨username, password, host, port, value last, numeral⟩, value describes.vhost⟩

end

/-- A host that is defined twice, an '=' in a value and a port within other characters. -/
def sampleSettings : List (String × String) :=
  [("RABBITMQ_HOST", "example"), ("RABBITMQ_USERNAME", "guest"), ("RABBITMQ_PASSWORD", "a=b"),
    ("RABBITMQ_HOST", "localhost"), ("RABBITMQ_PORT", " 5672;"), ("RABBITMQ_VHOST", "tag")]

def sampleBroker : Broker := ⟨"localhost", 5672, "guest", "a=b", "tag"⟩

theorem main_reads_back_sample : main (some (DotEnv.fileText sampleSettings)) (fun _ => none) =
    some ⟨simulated.map fun service => (service, ⟨"localhost", 5672, "guest", "a=b", ""⟩),
      some sampleBroker⟩ := by
  have writable : DotEnv.Writable sampleSettings := by
    simp [DotEnv.Writable, sampleSettings]
  have blank : ∀ c ∈ [' '], Stoi.isSpace c = true := by simp [Stoi.isSpace]
  have semicolon : ∀ c ∈ [';'].head?, c.isDigit = false := by simp [Char.isDigit]
  have port : Stoi.Numeral " 5672;".toList (5672 : Int32).toInt :=
    (Stoi.stoi_eq_ok_iff _ _).mp (Stoi.stoi_toString 5672 [' '] [';'] blank semicolon)
  exact main_reads_back sampleSettings writable _ (.inl rfl) sampleBroker
    ⟨by decide, by decide, by decide, ⟨_, by decide, port⟩, by decide⟩ _

end NetworkDiscovery.Startup
