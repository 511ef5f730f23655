import TwinpassGateway.Foundation.Word

/-!
The tables of `common_cli.h` that describe the wireless commands: private ones by name and sizes of their
arguments, standard ones by the shape of their data. `WIRELESS_EXT` is 15.
-/

namespace TwinpassGateway.Wireless

def siociwfirst : Nat := 0x8B00

def siociwfirstpriv : Nat := 0x8BE0

def ifnamsiz : Nat := 16

def iwPrivTypeMask : Nat := 0x7000

def iwPrivSizeFixed : Nat := 0x0800

def iwPrivSizeMask : Nat := 0x07FF

def iwPrivTypeByte : Nat := 0x1000

def iwPrivTypeChar : Nat := 0x2000

def iwPrivTypeInt : Nat := 0x4000

def iwPrivTypeAddr : Nat := 0x6000

def sizeofIwFreq : Nat := 8

def sizeofSockaddr : Nat := 16

def sizeofIwQuality : Nat := 4

def sizeofIwRange : Nat := 308

/-! ### Private commands -/

structure IwPrivArgs where
  cmd : Nat
  setArgs : Nat
  getArgs : Nat
  name : String

/-- The sizes are those of the structures that the commands take. -/
def iwPrivTypeOptie : Nat := iwPrivTypeByte ||| 256

def iwPrivTypeKey : Nat := iwPrivTypeByte ||| 64

def iwPrivTypeDelkey : Nat := iwPrivTypeByte ||| 7

def iwPrivTypeMlme : Nat := iwPrivTypeByte ||| 10

def iwPrivTypeChanlist : Nat := iwPrivTypeByte ||| 32

def iwPrivTypeChaninfo : Nat := iwPrivTypeByte ||| 3064

def iwPrivTypeAppiebuf : Nat := iwPrivTypeByte ||| 1024

def iwPrivTypeFilter : Nat := iwPrivTypeByte ||| 4

def ints (n : Nat) : Nat := iwPrivTypeInt ||| iwPrivSizeFixed ||| n

def setting (cmd : Nat) (name : String) : IwPrivArgs := ⟨cmd, ints 1, 0, name⟩

/-- The two entries of a parameter, one that sets and one that gets it. -/
def parameter (cmd : Nat) (name getName : String) : List IwPrivArgs :=
  [setting cmd name, ⟨cmd, 0, ints 1, getName⟩]

def wmmParameter (cmd : Nat) (name getName : String) : List IwPrivArgs :=
  [⟨cmd, ints 3, 0, name⟩, ⟨cmd, ints 2, ints 1, getName⟩]

def ieee80211PrivArgs : List IwPrivArgs :=
  List.flatten [
    [⟨siociwfirstpriv + 8, iwPrivTypeOptie, 0, "setoptie"⟩,
      ⟨siociwfirstpriv + 9, 0, iwPrivTypeOptie, "getoptie"⟩,
      ⟨siociwfirstpriv + 2, iwPrivTypeKey ||| iwPrivSizeFixed, 0, "setkey"⟩,
      ⟨siociwfirstpriv + 4, iwPrivTypeDelkey ||| iwPrivSizeFixed, 0, "delkey"⟩,
      ⟨siociwfirstpriv + 6, iwPrivTypeMlme ||| iwPrivSizeFixed, 0, "setmlme"⟩,
      ⟨siociwfirstpriv + 10, iwPrivTypeAddr ||| iwPrivSizeFixed ||| 1, 0, "addmac"⟩,
      ⟨siociwfirstpriv + 12, iwPrivTypeAddr ||| iwPrivSizeFixed ||| 1, 0, "delmac"⟩,
      ⟨siociwfirstpriv + 14, iwPrivTypeChanlist ||| iwPrivSizeFixed, 0, "setchanlist"⟩,
      ⟨siociwfirstpriv + 13, 0, iwPrivTypeChanlist ||| iwPrivSizeFixed, "getchanlist"⟩,
      ⟨siociwfirstpriv + 7, 0, iwPrivTypeChaninfo ||| iwPrivSizeFixed, "getchaninfo"⟩,
      ⟨siociwfirstpriv + 18, iwPrivTypeChar ||| 6, 0, "mode"⟩,
      ⟨siociwfirstpriv + 17, 0, iwPrivTypeChar ||| 6, "get_mode"⟩,
      ⟨siociwfirstpriv + 3, ints 4, 0, "setwmmparams"⟩,
      ⟨siociwfirstpriv + 5, ints 3, ints 1, "getwmmparams"⟩,
      ⟨siociwfirstpriv + 3, ints 3, 0, ""⟩,
      ⟨siociwfirstpriv + 5, ints 2, ints 1, ""⟩],
    wmmParameter 1 "cwmin" "get_cwmin",
    wmmParameter 2 "cwmax" "get_cwmax",
    wmmParameter 3 "aifs" "get_aifs",
    wmmParameter 4 "txoplimit" "get_txoplimit",
    wmmParameter 5 "acm" "get_acm",
    wmmParameter 6 "noackpolicy" "get_noackpolicy",
    [⟨siociwfirstpriv + 0, ints 2, 0, "setparam"⟩,
      ⟨siociwfirstpriv + 1, ints 1, ints 1, "getparam"⟩,
      ⟨siociwfirstpriv + 0, ints 1, 0, ""⟩,
      ⟨siociwfirstpriv + 1, 0, ints 1, ""⟩],
    parameter 3 "authmode" "get_authmode",
    parameter 4 "protmode" "get_protmode",
    parameter 5 "mcastcipher" "get_mcastcipher",
    parameter 6 "mcastkeylen" "get_mcastkeylen",
    parameter 7 "ucastciphers" "get_uciphers",
    parameter 8 "ucastcipher" "get_ucastcipher",
    parameter 9 "ucastkeylen" "get_ucastkeylen",
    parameter 21 "keymgtalgs" "get_keymgtalgs",
    parameter 22 "rsncaps" "get_rsncaps",
    parameter 12 "roaming" "get_roaming",
    parameter 13 "privacy" "get_privacy",
    parameter 14 "countermeasures" "get_countermeas",
    parameter 15 "dropunencrypted" "get_dropunencry",
    parameter 10 "wpa" "get_wpa",
    parameter 16 "driver_caps" "get_driver_caps",
    [setting 17 "maccmd"],
    parameter 18 "wmm" "get_wmm",
    parameter 19 "hide_ssid" "get_hide_ssid",
    parameter 20 "ap_bridge" "get_ap_bridge",
    parameter 23 "inact" "get_inact",
    parameter 24 "inact_auth" "get_inact_auth",
    parameter 25 "inact_init" "get_inact_init",
    parameter 26 "abolt" "get_abolt",
    parameter 28 "dtim_period" "get_dtim_period",
    parameter 29 "bintval" "get_bintval",
    parameter 30 "doth" "get_doth",
    parameter 31 "doth_pwrtgt" "get_doth_pwrtgt",
    [setting 32 "doth_reassoc"],
    parameter 33 "compression" "get_compression",
    parameter 34 "ff" "get_ff",
    parameter 1 "turbo" "get_turbo",
    parameter 35 "xr" "get_xr",
    parameter 36 "burst" "get_burst",
    [⟨siociwfirstpriv + 16, ints 2, 0, "doth_chanswitch"⟩],
    parameter 37 "pureg" "get_pureg",
    parameter 38 "ar" "get_ar",
    parameter 39 "wds" "get_wds",
    parameter 40 "bgscan" "get_bgscan",
    parameter 41 "bgscanidle" "get_bgscanidle",
    parameter 42 "bgscanintvl" "get_bgscanintvl",
    parameter 43 "mcast_rate" "get_mcast_rate",
    parameter 44 "coverageclass" "get_coveragecls",
    parameter 45 "countryie" "get_countryie",
    parameter 46 "scanvalid" "get_scanvalid",
    parameter 59 "regclass" "get_regclass",
    parameter 47 "rssi11a" "get_rssi11a",
    parameter 48 "rssi11b" "get_rssi11b",
    parameter 49 "rssi11g" "get_rssi11g",
    parameter 50 "rate11a" "get_rate11a",
    parameter 51 "rate11b" "get_rate11b",
    parameter 52 "rate11g" "get_rate11g",
    parameter 53 "uapsd" "get_uapsd",
    parameter 54 "sleep" "get_sleep",
    [setting 55 "qosnull"],
    [setting 56 "pspoll"],
    parameter 57 "eospdrop" "get_eospdrop",
    parameter 58 "markdfs" "get_markdfs",
    parameter 60 "chanbw" "get_chanbw",
    parameter 62 "shpreamble" "get_shpreamble",
    [setting 63 "blockdfschan"],
    [⟨siociwfirstpriv + 20, iwPrivTypeAppiebuf, 0, "setiebuf"⟩,
      ⟨siociwfirstpriv + 19, 0, iwPrivTypeAppiebuf, "getiebuf"⟩,
      ⟨siociwfirstpriv + 22, iwPrivTypeFilter, 0, "setfilter"⟩]]

/-- `priv_type_size`, in bytes. -/
def privTypeSize : List Nat := [0, 1, 1, 0, 4, sizeofIwFreq, sizeofSockaddr, 0]

/-- `get_priv_size`: the number of private arguments in bytes. -/
def getPrivSize (args : Nat) : Nat :=
  (args &&& iwPrivSizeMask) * privTypeSize.getD ((args &&& iwPrivTypeMask) >>> 12) 0

/-! ### Standard commands -/

def iwHeaderTypeNull : Nat := 0

def iwHeaderTypeChar : Nat := 2

def iwHeaderTypeUint : Nat := 4

def iwHeaderTypeFreq : Nat := 5

def iwHeaderTypeAddr : Nat := 6

def iwHeaderTypePoint : Nat := 8

def iwHeaderTypeParam : Nat := 9

structure IwIoctlDescription where
  headerType : Nat
  tokenSize : Nat
  minTokens : Nat
  maxTokens : Nat

def inRequest (headerType : Nat) : IwIoctlDescription := ⟨headerType, 0, 0, 0⟩

def pointTo (tokenSize maxTokens : Nat) : IwIoctlDescription := ⟨iwHeaderTypePoint, tokenSize, 0, maxTokens⟩

/-- From `SIOCSIWCOMMIT` to `SIOCGIWPOWER`. -/
def standardIoctl : List IwIoctlDescription :=
  -- commit, name, nwid, freq, mode and sens
  [inRequest iwHeaderTypeNull, inRequest iwHeaderTypeChar,
    inRequest iwHeaderTypeParam, inRequest iwHeaderTypeParam,
    inRequest iwHeaderTypeFreq, inRequest iwHeaderTypeFreq,
    inRequest iwHeaderTypeUint, inRequest iwHeaderTypeUint,
    inRequest iwHeaderTypeParam, inRequest iwHeaderTypeParam,
    -- range, priv and stats
    inRequest iwHeaderTypeNull, pointTo 1 sizeofIwRange,
    inRequest iwHeaderTypeNull, inRequest iwHeaderTypeNull,
    inRequest iwHeaderTypeNull, inRequest iwHeaderTypeNull,
    -- spy and two holes
    pointTo sizeofSockaddr 8, pointTo (sizeofSockaddr + sizeofIwQuality) 8,
    inRequest iwHeaderTypeNull, inRequest iwHeaderTypeNull,
    -- ap, a hole and aplist, scan
    inRequest iwHeaderTypeAddr, inRequest iwHeaderTypeAddr,
    inRequest iwHeaderTypeNull, pointTo (sizeofSockaddr + sizeofIwQuality) 64,
    inRequest iwHeaderTypeParam, pointTo 1 4096,
    -- essid, nickn and two holes
    pointTo 1 33, pointTo 1 33, pointTo 1 33, pointTo 1 33,
    inRequest iwHeaderTypeNull, inRequest iwHeaderTypeNull,
    -- rate, rts, frag, txpow and retry
    inRequest iwHeaderTypeParam, inRequest iwHeaderTypeParam,
    inRequest iwHeaderTypeParam, inRequest iwHeaderTypeParam,
    inRequest iwHeaderTypeParam, inRequest iwHeaderTypeParam,
    inRequest iwHeaderTypeParam, inRequest iwHeaderTypeParam,
    inRequest iwHeaderTypeParam, inRequest iwHeaderTypeParam,
    -- encode and power
    pointTo 1 32, pointTo 1 32,
    inRequest iwHeaderTypeParam, inRequest iwHeaderTypeParam]

end TwinpassGateway.Wireless
