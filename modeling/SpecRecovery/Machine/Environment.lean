import SpecRecovery.Abi.Type
import SpecRecovery.Json.Basic

namespace SpecRecovery

inductive Environment
  | caller
  | callValue
  | origin
  | this
  | coinbase
  | timestamp
  | blockNumber
  | chainId
  | gasLimit
  | prevRandao
  | baseFee
  | gasPrice
deriving DecidableEq, Inhabited

namespace Environment

def all : List Environment :=
  [caller, callValue, origin, this, coinbase, timestamp, blockNumber, chainId, gasLimit, prevRandao,
    baseFee, gasPrice]

def index : Environment → Nat
  | caller => 0
  | callValue => 1
  | origin => 2
  | this => 3
  | coinbase => 4
  | timestamp => 5
  | blockNumber => 6
  | chainId => 7
  | gasLimit => 8
  | prevRandao => 9
  | baseFee => 10
  | gasPrice => 11

instance : Ord Environment := ⟨compareOn index⟩

instance : Std.TransOrd Environment := inferInstanceAs (Std.TransCmp (compareOn index))

def type : Environment → AbiType
  | caller | origin | this | coinbase => .address
  | _ => .uint256

def text : Environment → String
  | caller => "CALLER"
  | callValue => "CALLVALUE"
  | origin => "ORIGIN"
  | this => "THIS"
  | coinbase => "COINBASE"
  | timestamp => "TIMESTAMP"
  | blockNumber => "NUMBER"
  | chainId => "CHAINID"
  | gasLimit => "GASLIMIT"
  | prevRandao => "PREVRANDAO"
  | baseFee => "BASEFEE"
  | gasPrice => "GASPRICE"

def name : Environment → String
  | caller => "Caller"
  | callValue => "CallValue"
  | origin => "Origin"
  | this => "This"
  | coinbase => "Coinbase"
  | timestamp => "Timestamp"
  | blockNumber => "BlockNumber"
  | chainId => "ChainId"
  | gasLimit => "GasLimit"
  | prevRandao => "PrevRandao"
  | baseFee => "BaseFee"
  | gasPrice => "GasPrice"

def key : Environment → String
  | caller => "caller"
  | callValue => "call_value"
  | origin => "origin"
  | this => "this"
  | coinbase => "coinbase"
  | timestamp => "timestamp"
  | blockNumber => "block_number"
  | chainId => "chain_id"
  | gasLimit => "gas_limit"
  | prevRandao => "prev_randao"
  | baseFee => "base_fee"
  | gasPrice => "gas_price"

def toJson (value : Environment) : Json := .string value.key

def ofKey? (key : String) : Option Environment := all.find? fun value => value.key == key

def ofJson? (json : Json) : Option Environment := do
  let (key, content) ← json.variant?
  if Json.isUnit content then ofKey? key else none

end Environment

end SpecRecovery
