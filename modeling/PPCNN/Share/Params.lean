import PPCNN.Lib.Bytes

/-!
# The parameters of the protocol (`ppcnn_computation_params.hpp`, `ppcnn_cli2srvparam.hpp`, `ppcnn_srv2cliparam.hpp`)

The structures that are sent as they lie in memory, with the bytes of padding between or after their
members.
-/

set_option autoImplicit false

namespace Share

open Lib

structure ComputationParams where
  imgWidth : UInt64
  imgHeight : UInt64
  imgChannels : UInt64
  labels : UInt64
  dataset : Vector UInt8 1024
  model : Vector UInt8 1024
  optLevel : Int32
  activation : Int32
  deriving DecidableEq

namespace ComputationParams

def fixed : Fixed ComputationParams :=
  (Fixed.sizeT.prod <| Fixed.sizeT.prod <| Fixed.sizeT.prod <| Fixed.sizeT.prod <|
    (Fixed.bytes 1024).prod <| (Fixed.bytes 1024).prod <| Fixed.int32.prod Fixed.int32).map
    (fun p => (p.imgWidth, p.imgHeight, p.imgChannels, p.labels, p.dataset, p.model, p.optLevel,
      p.activation))
    (fun (imgWidth, imgHeight, imgChannels, labels, dataset, model, optLevel, activation) =>
      { imgWidth, imgHeight, imgChannels, labels, dataset, model, optLevel, activation })
    fun _ => rfl

end ComputationParams

structure C2SEnckeyParam where
  keyId : Int32
  padding : Vector UInt8 4
  encParamsStreamSz : UInt64
  pubkeyStreamSz : UInt64
  relinkeyStreamSz : UInt64

namespace C2SEnckeyParam

def layout : Layout C2SEnckeyParam where
  toFixed := (Fixed.int32.prod <| (Fixed.bytes 4).prod <| Fixed.sizeT.prod <| Fixed.sizeT.prod
    Fixed.sizeT).map
    (fun p => (p.keyId, p.padding, p.encParamsStreamSz, p.pubkeyStreamSz, p.relinkeyStreamSz))
    (fun (keyId, padding, encParamsStreamSz, pubkeyStreamSz, relinkeyStreamSz) =>
      { keyId, padding, encParamsStreamSz, pubkeyStreamSz, relinkeyStreamSz })
    fun _ => rfl

def keyIdField : Field layout Int32 where
  offset := 0
  codec := Fixed.int32
  get := keyId
  slice := ((Fixed.Slice.refl _).fst _).map _

def encParamsStreamSzField : Field layout UInt64 where
  offset := 8
  codec := Fixed.sizeT
  get := encParamsStreamSz
  slice := ((((Fixed.Slice.refl Fixed.sizeT).fst _).snd (Fixed.bytes 4)).snd Fixed.int32).map
    fun _ => rfl

def pubkeyStreamSzField : Field layout UInt64 where
  offset := 16
  codec := Fixed.sizeT
  get := pubkeyStreamSz
  slice := (((((Fixed.Slice.refl Fixed.sizeT).fst _).snd Fixed.sizeT).snd (Fixed.bytes 4)).snd
    Fixed.int32).map fun _ => rfl

def relinkeyStreamSzField : Field layout UInt64 where
  offset := 24
  codec := Fixed.sizeT
  get := relinkeyStreamSz
  slice := (((((Fixed.Slice.refl Fixed.sizeT).snd Fixed.sizeT).snd Fixed.sizeT).snd
    (Fixed.bytes 4)).snd Fixed.int32).map fun _ => rfl

end C2SEnckeyParam

structure C2SQueryParam where
  compParams : ComputationParams
  encInputsStreamSz : UInt64
  keyId : Int32
  padding : Vector UInt8 4

namespace C2SQueryParam

def layout : Layout C2SQueryParam where
  toFixed := (ComputationParams.fixed.prod <| Fixed.sizeT.prod <| Fixed.int32.prod
    (Fixed.bytes 4)).map
    (fun p => (p.compParams, p.encInputsStreamSz, p.keyId, p.padding))
    (fun (compParams, encInputsStreamSz, keyId, padding) =>
      { compParams, encInputsStreamSz, keyId, padding })
    fun _ => rfl

def compParamsField : Field layout ComputationParams where
  offset := 0
  codec := ComputationParams.fixed
  get := compParams
  slice := ((Fixed.Slice.refl _).fst _).map _

def encInputsStreamSzField : Field layout UInt64 where
  offset := 2088
  codec := Fixed.sizeT
  get := encInputsStreamSz
  slice := (((Fixed.Slice.refl Fixed.sizeT).fst _).snd ComputationParams.fixed).map fun _ => rfl

def keyIdField : Field layout Int32 where
  offset := 2096
  codec := Fixed.int32
  get := keyId
  slice := ((((Fixed.Slice.refl Fixed.int32).fst _).snd Fixed.sizeT).snd ComputationParams.fixed).map
    fun _ => rfl

end C2SQueryParam

structure C2SResreqParam where
  queryId : Int32

/-- `ServerCalcResult_t`, an `int32_t` that may hold other values than the named ones. -/
abbrev ServerCalcResult := Int32

def kServerCalcResultNil : ServerCalcResult := -1
def kServerCalcResultSuccess : ServerCalcResult := 0
def kServerCalcResultFailed : ServerCalcResult := 1

structure Srv2CliParam where
  result : ServerCalcResult
  padding : Vector UInt8 4
  encResultsStreamSz : UInt64

namespace Srv2CliParam

def layout : Layout Srv2CliParam where
  toFixed := (Fixed.int32.prod <| (Fixed.bytes 4).prod Fixed.sizeT).map
    (fun p => (p.result, p.padding, p.encResultsStreamSz))
    (fun (result, padding, encResultsStreamSz) => { result, padding, encResultsStreamSz })
    fun _ => rfl
  init := (Fixed.int32.encode kServerCalcResultNil).map some ++ List.replicate 12 none
  length_init := by rw [List.length_append, List.length_map, Fixed.length_encode]; rfl

def resultField : Field layout ServerCalcResult where
  offset := 0
  codec := Fixed.int32
  get := result
  slice := ((Fixed.Slice.refl _).fst _).map _

def encResultsStreamSzField : Field layout UInt64 where
  offset := 8
  codec := Fixed.sizeT
  get := encResultsStreamSz
  slice := (((Fixed.Slice.refl Fixed.sizeT).snd (Fixed.bytes 4)).snd Fixed.int32).map fun _ => rfl

end Srv2CliParam

end Share
