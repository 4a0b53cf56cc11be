import VeilVpn.Text
import VeilVpn.Payment.Impl.Authorization

/-!
This module contains the requests to the settlement service.
-/

namespace Payment

structure GatewayExtra where
  name : String
  version : String
  verifyingContract : String
  deriving DecidableEq

structure PaymentRequirements where
  scheme : String
  network : String
  asset : String
  amount : String
  payTo : String
  maxTimeoutSeconds : Nat
  extra : GatewayExtra
  deriving DecidableEq

structure AuthorizationData where
  «from» : String
  «to» : String
  value : String
  validAfter : String
  validBefore : String
  nonce : String
  deriving DecidableEq

structure PayloadData where
  signature : String
  authorization : AuthorizationData
  deriving DecidableEq

structure ResourceInfo where
  url : String
  description : String
  mimeType : String
  deriving DecidableEq

structure PaymentPayload where
  x402Version : Nat
  resource : Option ResourceInfo
  accepted : PaymentRequirements
  payload : PayloadData
  deriving DecidableEq

structure SettleRequest where
  x402Version : Nat
  paymentPayload : PaymentPayload
  paymentRequirements : PaymentRequirements
  deriving DecidableEq

structure SettleResponse where
  success : Bool
  deriving DecidableEq

inductive SettlementError where
  | http (e : String)
  | json (e : String)
  | api (reason message : String)
  deriving DecidableEq

def buildSettleRequest (config : PaymentConfig) (submit : PaymentSubmit)
    (serverAddress : FixedBytes 20) : SettleRequest :=
  let requirements : PaymentRequirements := {
    scheme := "exact"
    network := "eip155:" ++ toString config.chainId
    asset := "0x" ++ Hex.encode config.usdcContract.val
    amount := toString submit.value
    payTo := "0x" ++ Hex.encode serverAddress.val
    maxTimeoutSeconds := 345600
    extra := {
      name := config.gatewayName
      version := config.gatewayVersion
      verifyingContract := "0x" ++ Hex.encode config.gatewayWallet.val
    }
  }
  let authorization : AuthorizationData := {
    «from» := "0x" ++ Hex.encode submit.from.val
    «to» := "0x" ++ Hex.encode submit.to.val
    value := toString submit.value
    validAfter := toString submit.validAfter
    validBefore := toString submit.validBefore
    nonce := "0x" ++ Hex.encode submit.nonce.val
  }
  {
    x402Version := 2
    paymentPayload := {
      x402Version := 2
      resource := some {
        url := "boringtun-vpn://bandwidth"
        description := "VPN bandwidth quota"
        mimeType := "application/octet-stream"
      }
      accepted := requirements
      payload := {
        signature := "0x" ++ Hex.encode (submit.r.val ++ submit.s.val ++ [submit.v])
        authorization
      }
    }
    paymentRequirements := requirements
  }

end Payment
