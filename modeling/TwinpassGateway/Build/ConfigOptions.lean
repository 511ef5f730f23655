import TwinpassGateway.Foundation.Run

/-!
`create_config`: the table of configuration options, the calls that set them, and the tables of the
jpkg distributions. `openrg_config_options` is the table that the calls work on; it is the main table
except while a jpkg distribution is configured. A call that ends in `exit` leaves everything as it is.
-/

namespace TwinpassGateway.Build

open Foundation

/-- `set_prio_t`, with the 0 that an option without a value starts from. -/
inductive SetPrio where
  | unset
  | init
  | tokenSetDefault
  | tokenSet
  | cmdLine
  deriving DecidableEq

def SetPrio.rank : SetPrio → Nat
  | .unset => 0
  | .init => 1
  | .tokenSetDefault => 2
  | .tokenSet => 3
  | .cmdLine => 4

/-! ### `opt_type_t` -/

def optModuleExpand : Nat := 0x1

def optStaticOnDevelop : Nat := 0x2

def optModule : Nat := 0x40

def optH : Nat := 0x100

def optHC : Nat := 0x200

def optMK : Nat := 0x400

def optInt : Nat := 0x800

def optStr : Nat := 0x1000

def optCStr : Nat := 0x2000

def optNumber : Nat := 0x4000

def optExport : Nat := 0x8000

/-- `option_t`. -/
structure ConfigOption where
  token : String
  value : Option String
  type : Nat
  file : Option String
  line : Nat
  setPrio : SetPrio
  deriving DecidableEq

def ConfigOption.has (o : ConfigOption) (flag : Nat) : Bool := o.type &&& flag ≠ 0

structure JpkgDist where
  dist : String
  options : List ConfigOption

structure CreateConfig where
  /-- `config_options_base`. -/
  base : List ConfigOption
  /-- The main table. -/
  options : List ConfigOption
  jpkgDists : List JpkgDist := []
  /-- The jpkg distribution whose table `openrg_config_options` points to. -/
  current : Option Nat := none
  exited : Bool := false

/-! ### Numbers -/

def digitValue (base : Nat) (c : Char) : Option Nat :=
  let v := if c.isDigit then some (c.toNat - 48)
    else if 'a' ≤ c ∧ c ≤ 'f' then some (c.toNat - 87)
    else if 'A' ≤ c ∧ c ≤ 'F' then some (c.toNat - 55)
    else none
  v.filter (· < base)

def scanDigits (base : Nat) : Nat → List Char → Nat
  | acc, [] => acc
  | acc, c :: rest =>
    match digitValue base c with
    | none => acc
    | some d => scanDigits base (acc * base + d) rest

/-- `str_to_number`: what `sscanf` leaves in a variable that starts at 0. -/
def strToNumber (val : String) : Int :=
  match val.toList with
  | '0' :: 'x' :: rest => scanDigits 16 0 rest
  | cs =>
    match cs.dropWhile Char.isWhitespace with
    | '-' :: rest => -(scanDigits 10 0 rest : Int)
    | '+' :: rest => scanDigits 10 0 rest
    | rest => scanDigits 10 0 rest

/-! ### Access to the current table -/

def optionTokenGetNofail (array : List ConfigOption) (token : String) : Option Nat :=
  array.findIdx? (·.token = token)

namespace CreateConfig

def openrgConfigOptions (s : CreateConfig) : List ConfigOption :=
  match s.current with
  | none => s.options
  | some k => (s.jpkgDists[k]?).elim [] JpkgDist.options

def setOption (s : CreateConfig) (i : Nat) (o : ConfigOption) : CreateConfig :=
  match s.current with
  | none => { s with options := s.options.set i o }
  | some k => { s with jpkgDists := s.jpkgDists.modify k fun p => { p with options := p.options.set i o } }

/-- `exit`, from `conf_err` or directly. -/
def confErr (s : CreateConfig) : CreateConfig := { s with exited := true }

end CreateConfig

/-- `token_get`: nothing when it ends in `conf_err`. -/
def tokenGet (s : CreateConfig) (token : String) : Option Int :=
  match s.openrgConfigOptions.find? (·.token = token) with
  | none => none
  | some o =>
    if o.has (optStr ||| optCStr) then none
    else
      match o.value with
      | none => some 0
      | some val =>
        if o.has optNumber then some (strToNumber val) else some (if val = "y" ∨ val = "m" then 1 else 0)

/-! ### Setting options -/

/-- `_token_set` from where the option is known: `value` is the text that `vsnprintf` has produced. -/
def tokenSetOption (s : CreateConfig) (file : String) (line : Nat) (setPrio : SetPrio) (i : Nat) (opt : ConfigOption)
    (value : String) : CreateConfig :=
  let store (value : String) := s.setOption i { opt with file := some file, line, value := some value, setPrio }
  if setPrio.rank < opt.setPrio.rank then s
  else if value = "m" then
    -- `!opt->type & OPT_MODULE_EXPAND`
    if opt.type = 0 then s.confErr
    else if opt.has optStaticOnDevelop then
      match tokenGet s "CONFIG_RG_DEV" with
      | none => s.confErr
      | some dev => store (if dev ≠ 0 then "y" else value)
    else store value
  else store value

/-- `_token_set`, with the text that `vsnprintf` would produce without a limit. -/
def tokenSet (s : CreateConfig) (file : String) (line : Nat) (setPrio : SetPrio) (token value : String) : CreateConfig :=
  if value.utf8ByteSize > 4094 then s.confErr
  else
    match optionTokenGetNofail s.openrgConfigOptions token with
    | none => s.confErr
    | some i =>
      match s.openrgConfigOptions[i]? with
      | none => s.confErr
      | some opt => tokenSetOption s file line setPrio i opt value

def tokenSetM (s : CreateConfig) (file : String) (line : Nat) (token : String) : CreateConfig :=
  match tokenGet s "CONFIG_RG_OS_VXWORKS" with
  | none => s.confErr
  | some vxworks => tokenSet s file line .tokenSet token (if vxworks ≠ 0 then "y" else "m")

/-- `strtok` with the delimiter `=`: the next token and what is left behind it. -/
def strtok (s : List Char) : Option (List Char × List Char) :=
  match s.dropWhile (· = '=') with
  | [] => none
  | cs => some (cs.takeWhile (· ≠ '='), (cs.dropWhile (· ≠ '=')).drop 1)

/-- The `token_set` of `add_feature_parse`, if the argument has a value. The value is a format string;
`vsnprintf` is what it prints as. -/
def featureValue (vsnprintf : String → String) (s : CreateConfig) (token : String) (rest : List Char) : CreateConfig :=
  match strtok rest with
  | none => s
  | some (value, _) => tokenSet s "create_config.c" 100 .tokenSet token (vsnprintf (String.ofList value))

def pinOption (s : CreateConfig) (i : Nat) : CreateConfig :=
  match s.openrgConfigOptions[i]? with
  | none => s
  | some o => s.setOption i { o with setPrio := .cmdLine }

def addFeatureParse (vsnprintf : String → String) (s : CreateConfig) (arg : String) : CreateConfig :=
  match strtok arg.toList with
  | none => s.confErr
  | some (token, rest) =>
    match optionTokenGetNofail s.openrgConfigOptions (String.ofList token) with
    | none => s.confErr
    | some i =>
      match s.openrgConfigOptions[i]? with
      | none => s.confErr
      | some o =>
        if o.has optInt then s.confErr
        else
          let s := featureValue vsnprintf s (String.ofList token) rest
          if s.exited then s else pinOption s i

/-! ### jpkg distributions -/

def jpkgDistAdd (s : CreateConfig) (dist : String) : CreateConfig :=
  { s with jpkgDists := s.jpkgDists ++ [{ dist, options := s.base }] }

def mergeFrom (i : Nat) (o : ConfigOption) (p : JpkgDist) : ConfigOption :=
  match p.options[i]? with
  | none => o
  | some q => if q.value.isSome then q else o

/-- The inner loop of `jpkg_configuration`: the last distribution that has a value wins. -/
def mergeOption (jpkgDists : List JpkgDist) (i : Nat) (o : ConfigOption) : ConfigOption :=
  if o.value.isSome then o else jpkgDists.foldl (mergeFrom i) o

/-- The end of `jpkg_configuration`: back to the main table, and the merge. -/
def jpkgMerge (s : CreateConfig) : CreateConfig :=
  { s with current := none, options := s.options.mapIdx (mergeOption s.jpkgDists) }

/-! ### Runs -/

inductive ConfigEvent where
  /-- `-f arg`. -/
  | feature (arg : String)
  | tokenSet (file : String) (line : Nat) (token value : String)
  | tokenSetDefault (file : String) (line : Nat) (token value : String)
  | tokenSetM (file : String) (line : Nat) (token : String)
  | jpkgDistAdd (dist : String)
  /-- The loop of `jpkg_configuration` reaches a distribution. -/
  | jpkgNext (k : Nat)
  | jpkgMerge

namespace CreateConfig

def start (base : List ConfigOption) : CreateConfig := { base, options := base }

def step (vsnprintf : String → String) (s : CreateConfig) (e : ConfigEvent) : CreateConfig :=
  if s.exited then s
  else
    match e with
    | .feature arg => addFeatureParse vsnprintf s arg
    | .tokenSet file line token value => Build.tokenSet s file line .tokenSet token value
    | .tokenSetDefault file line token value => Build.tokenSet s file line .tokenSetDefault token value
    | .tokenSetM file line token => Build.tokenSetM s file line token
    | .jpkgDistAdd dist => Build.jpkgDistAdd s dist
    | .jpkgNext k => { s with current := some k }
    | .jpkgMerge => Build.jpkgMerge s

end CreateConfig

end TwinpassGateway.Build
