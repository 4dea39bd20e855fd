import BtcDk.FundingScript

/-!
# The JNI layer's conversions

`jni.rs` exposes the library to Java.  Apart from forwarding to `crate::api`, whose code is not
part of the modelled source, its functions convert between Rust and Java values: a network and
its enum ordinal, and a configuration and the arguments of the Java `Config` constructor, which
`updateConfig` takes back.  Every conversion that can fail panics (`expect`, `unwrap`); here a
panic is `none`.  The conversions are inverse: a configuration that `j_optional_config` hands to
Java comes back unchanged through the arguments `updateConfig` reads, as far as the peer
addresses survive their own `to_string` and `from_str`, and the only configurations it cannot
hand over are those whose peer list or connection count does not fit a Java `int`.
-/

namespace BtcDk

/-- `network_from_jint` of `jni.rs`: the network of a Java enum ordinal; `none` where the binding
panics with "invalid network enum ordinal". -/
def networkFromJint : Int → Option Network
  | 0 => some .bitcoin
  | 1 => some .testnet
  | 2 => some .regtest
  | _ => none

/-- `jint_from_network` of `jni.rs`. -/
def jintFromNetwork : Network → Int
  | .bitcoin => 0
  | .testnet => 1
  | .regtest => 2

theorem networkFromJint_jintFromNetwork (network : Network) :
    networkFromJint (jintFromNetwork network) = some network := by
  cases network <;> rfl

/-- `crate::config::Config`, by the fields the JNI layer converts; a peer is a `SocketAddr`. -/
structure Config (SocketAddr : Type) where
  network : Network
  bitcoinPeers : List SocketAddr
  bitcoinConnections : Nat
  bitcoinDiscovery : Bool
  deriving DecidableEq, Repr

/-- The arguments of the Java constructor `Config(int networkEnumOrdinal, String[] bitcoinPeers,
int bitcoinConnections, boolean bitcoinDiscovery)`, which `updateConfig` takes after the work
directory. -/
structure JConfig where
  networkEnumOrdinal : Int
  bitcoinPeers : List String
  bitcoinConnections : Int
  bitcoinDiscovery : UInt8
  deriving DecidableEq, Repr

/-- The largest Java `int`, `i32::MAX`. -/
def jintMax : Nat := 2 ^ 31 - 1

section Conversions

variable {SocketAddr : Type} (toString : SocketAddr → String)
  (fromStr : String → Option SocketAddr)

/-- `j_optional_config`: the arguments of the Java `Config` it builds, each peer through
`to_string`; `none` where `i32::try_from` of the number of peers or `jint::try_from` of the
connection count panics.  `jboolean::try_from` of a `bool` cannot fail. -/
def jOptionalConfig (config : Config SocketAddr) : Option JConfig :=
  if config.bitcoinPeers.length ≤ jintMax ∧ config.bitcoinConnections ≤ jintMax then
    some ⟨jintFromNetwork config.network, config.bitcoinPeers.map toString,
      config.bitcoinConnections, if config.bitcoinDiscovery then 1 else 0⟩
  else none

/-- What `Java_org_btcdk_jni_BtcDkLib_updateConfig` passes on to `update_config`: the network
through `network_from_jint`, each peer through `SocketAddr::from_str`, the connection count
through `usize::try_from`, and the discovery flag compared with `1`; `none` where one of them
panics. -/
def updateConfigArgs (args : JConfig) : Option (Network × List SocketAddr × Nat × Bool) := do
  let network ← networkFromJint args.networkEnumOrdinal
  let bitcoinPeers ← args.bitcoinPeers.mapM fromStr
  let bitcoinConnections ←
    if 0 ≤ args.bitcoinConnections then some args.bitcoinConnections.toNat else none
  pure (network, bitcoinPeers, bitcoinConnections, args.bitcoinDiscovery == 1)

theorem mapM_fromStr_toString {peers : List SocketAddr}
    (parses : ∀ peer ∈ peers, fromStr (toString peer) = some peer) :
    (peers.map toString).mapM fromStr = some peers := by
  induction peers with
  | nil => rfl
  | cons peer peers ih =>
    rw [List.map_cons, List.mapM_cons, parses peer (.head _),
      ih fun other mem => parses other (.tail _ mem)]
    rfl

/-- A configuration handed to Java and read back by `updateConfig` is the configuration it was,
whenever its peer addresses parse back from their text; handing it over panics exactly when its
peer list or its connection count does not fit a Java `int`. -/
theorem config_round_trip (config : Config SocketAddr)
    (parses : ∀ peer ∈ config.bitcoinPeers, fromStr (toString peer) = some peer) :
    (jOptionalConfig toString config).bind (updateConfigArgs fromStr) =
      if config.bitcoinPeers.length ≤ jintMax ∧ config.bitcoinConnections ≤ jintMax then
        some (config.network, config.bitcoinPeers, config.bitcoinConnections,
          config.bitcoinDiscovery)
      else none := by
  unfold jOptionalConfig
  by_cases fits : config.bitcoinPeers.length ≤ jintMax ∧ config.bitcoinConnections ≤ jintMax
  · rw [if_pos fits, if_pos fits]
    have discovery : ((if config.bitcoinDiscovery then 1 else 0 : UInt8) == 1) =
        config.bitcoinDiscovery := by
      cases config.bitcoinDiscovery <;> rfl
    simp only [Option.some_bind, updateConfigArgs, networkFromJint_jintFromNetwork,
      mapM_fromStr_toString toString fromStr parses, Int.ofNat_nonneg, if_true, discovery,
      Int.toNat_ofNat]
    rfl
  · rw [if_neg fits, if_neg fits]; rfl

end Conversions

theorem testnet_config_round_trip :
    (jOptionalConfig id (⟨.testnet, ["127.0.0.1:18333"], 8, true⟩ : Config String)).bind
        (updateConfigArgs some) =
      some (.testnet, ["127.0.0.1:18333"], 8, true) := by
  rw [config_round_trip id some _ fun _ _ => rfl]
  rfl

end BtcDk
