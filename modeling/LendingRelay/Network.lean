import LendingRelay.Pubkey

/-!
# Networks

The deployments of the lending program with the accounts that clients commonly address. Every
network stays readable; the relay itself serves `Network.active`.
-/

namespace LendingRelay

/-- A reserve of the main market with the symbol clients know it by. -/
structure ListedReserve where
  symbol : String
  reserve : Pubkey
  /-- The wrapped vault behind the reserve; such a reserve is refreshed together with its vault. -/
  psyfiVault : Option Pubkey
  deriving DecidableEq

inductive Network
  | devnet
  | mainnet
  deriving DecidableEq, Repr

namespace Network

def name : Network → String
  | devnet => "devnet"
  | mainnet => "mainnet"

/-- `8bpiM4yhcLYMSeCBTVFWisneXPQQWPYSA5ZpMm4DKAgT` and
`PLENDj46Y4hhqitNV2WqLqGLrWKAaH2xJHm2UyHgJLY`. -/
def lendingProgram : Network → Pubkey
  | devnet => .ofNat 0x70ed814e200ffdacf52ac4fc4fabd4a50e361ef95fe7b66e6f46c733f39b6fa4
  | mainnet => .ofNat 0x05b885905b1a57654771061e3a0ceeda68bdb834a84c385208c0036ec42ed729

/-- `5QkMERuZEUP4XPP598z2dNPSZeupR8cNi3kyzvs6mbSb` and
`6b2oWJP6NdsLFsY8YJqLKXShGwEtztdmrHeArdb3SCLa`. -/
def mainMarket : Network → Pubkey
  | devnet => .ofNat 0x41841ef8993bf9369e3b4b96e229fd99d4d44fd55f4864cfd0c832116270d5c4
  | mainnet => .ofNat 0x5302382e55c1a1864955aaa030170e848f355249caf327dded7a8d63560132c3

/-- The program that only logs has one id, `Ev6JrN5HqrKwXhoB9jucLdn51yzzDvWmBHkubXWavRio`. -/
def dummyProgram : Network → Pubkey
  | _ => .ofNat 0xcec1b6e5f9d9183fcef265252eb0bc4796d33e9c9c480442df8bb81d47a2b3d0

def devnetReserves : List ListedReserve :=
  [⟨"USDC", .ofNat 0x0add30c0fd6404d215065a91bbf15f8ee4f2dfca008d18d489aab3a0c995fe8a, none⟩,
   ⟨"SOL", .ofNat 0xb74ff170c29bfbe2ac3f9c5cad3762274f2b46dac8dee6700b493c0ce11eb375, none⟩,
   ⟨"BTC", .ofNat 0xb6efed53ca883b0c0962d9cf427ebc30e255e63541e2bb8cf8fbda1a657a5dbb, none⟩,
   ⟨"BTC_CALL", .ofNat 0xda9fa5b00eb0710f245004466f6ddda85edd927791dd313f851b69cbfa9d5d03,
    some (.ofNat 0xb393163df63eb9f6b2d1da48c96475bf444ddb0b5340ae6cc4ac3d94b26826e5)⟩,
   ⟨"BTC_PUT", .ofNat 0xb0581a624f45cf3b8f0062d0af8ca0815413c9fccf552ab24f76dfbb7a0f5337,
    some (.ofNat 0x33b85071af8ee1127f86881bfc2e26c0308bf79c2840befda6c283ef1d7e21ec)⟩]

def mainnetReserves : List ListedReserve :=
  [⟨"USDC", .ofNat 0x3af363ddd2e043af8339e770096c813e498958346b14bd4e075cd2f1d990ef4d, none⟩,
   ⟨"SOL", .ofNat 0x97ac51c8157814f22522e9ab28999d70b27b2ed7683e7c1251d5d047f004c47d, none⟩,
   ⟨"SOL_PUT", .ofNat 0xa3830d21c1dff4aebc658848584ba27aa39db68e28521dd3acccb5632fdefc88,
    some (.ofNat 0x5e05ce2b187db330c983b5f17109535c08164755b548765e8bfabba67d88e298)⟩,
   ⟨"WETH_CALL", .ofNat 0x35e972257964914fb014c2598373be8652d1aff0304930d18438c6a15f4edd88,
    some (.ofNat 0x49284a2f986e0812fb456919125e6236d092f0160963525f7cc014103b729c95)⟩,
   ⟨"SOL_CALL", .ofNat 0xda4123092b2d1989bc81432b8b823f924debacb5d5322b8024b09738550ec7ad,
    some (.ofNat 0x6e81c36093ec5f0b4b64baf713193a88686129adbff8b441509dab4c7c58bfbf)⟩,
   ⟨"BTC_PUT", .ofNat 0x30c8fd7da9a308bf276cec8b49a10b79a27ff76104bb4b981515513ba09c75d7,
    some (.ofNat 0x5b34289ffa53e7d20404b4f0dcd057eb2852c96ebda7842df80d314905062c2e)⟩]

def reserves : Network → List ListedReserve
  | devnet => devnetReserves
  | mainnet => mainnetReserves

/-- The listed reserve with a symbol; symbols are compared as they are written. -/
def reserve? (network : Network) (symbol : String) : Option ListedReserve :=
  network.reserves.find? (fun listed => listed.symbol == symbol)

/-- The network the relay serves. -/
def active : Network :=
  mainnet

end Network

/-- The id the relay itself runs under, `BVr85VrQhRJAixhUt68bmodrvzv5nQXdUMbuihRWqNGb`. -/
def relayProgram : Pubkey :=
  .ofNat 0x9bf8aca385dd41fb2ccc99790fefd7741b9de07a492cd9e36895d26f1e92194c

def lendingProgram : Pubkey :=
  Network.active.lendingProgram

def mainMarket : Pubkey :=
  Network.active.mainMarket

def dummyProgram : Pubkey :=
  Network.active.dummyProgram

end LendingRelay
