import PPCNN.Lib.Except
import PPCNN.Lib.Rounding
import PPCNN.Lib.System
import PPCNN.Lib.OrdMap
import PPCNN.Share.ConcurrentMapQueue
import PPCNN.Server.Query
import PPCNN.Server.CalcManager
import PPCNN.Server.Custody
import PPCNN.Server.Delivery
import PPCNN.Server.Loss
import PPCNN.Lib.Progress
import PPCNN.Server.Progress
import PPCNN.Cnn.Types
import PPCNN.Cnn.Seal
import PPCNN.Cnn.Tensor
import PPCNN.Cnn.Layers
import PPCNN.Cnn.LoadModel
import PPCNN.Cnn.Network
import PPCNN.Keras.Ops
import PPCNN.Keras.Model
import PPCNN.Keras.DenseStack
import PPCNN.Keras.Constant
import PPCNN.Cnn.Proof.Interp
import PPCNN.Cnn.Proof.Window
import PPCNN.Cnn.Proof.Forward
import PPCNN.Cnn.Proof.Stored
import PPCNN.Cnn.Proof.Build
import PPCNN.Cnn.Proof.Step
import PPCNN.Cnn.Proof.Run
import PPCNN.Cnn.Proof.Network
import PPCNN.Cnn.Proof.Complete
import PPCNN.Cnn.Proof.Pending
import PPCNN.Cnn.Proof.Neutral
import PPCNN.Cnn.Proof.WeightFile
import PPCNN.Cnn.Proof.Ratio
import PPCNN.Cnn.Levels
import PPCNN.Cnn.Activations
import PPCNN.Cnn.Architecture
import PPCNN.Cnn.AllOpt
import PPCNN.Cnn.Proof.CoeffRatio
import PPCNN.Cnn.SquareNetworks
import PPCNN.Cnn.GlobalAverage
import PPCNN.Cnn.Pooling
import PPCNN.Cnn.Differ
import PPCNN.Cnn.PoolingOrder
import PPCNN.Cnn.ActivationOrder
import PPCNN.Cnn.Proof.Frame
import PPCNN.Cnn.Rebuild
import PPCNN.Cnn.Interleave
import PPCNN.Cnn.Proof.Fuse
import PPCNN.Cnn.FuseLayers
import PPCNN.Cnn.Shapes
import PPCNN.Cnn.Structure
import PPCNN.Keras.Config
import PPCNN.Cnn.Proof.Thrown
import PPCNN.Cnn.Loader
import PPCNN.Cnn.Multiplicands
import PPCNN.Server.Callback
import PPCNN.Server.Limits
import PPCNN.Server.Keys
import PPCNN.Lib.ByteStream
import PPCNN.Share.BasicData
import PPCNN.Share.Params
import PPCNN.Server.Messages
import PPCNN.Server.Malformed
import PPCNN.Cnn.InputTensor
import PPCNN.Client.EncryptImages
import PPCNN.Client.Compute
import PPCNN.Client.KeyContainer
import PPCNN.Cnn.DenseFused
import PPCNN.Cnn.Proof.MachineInt
import PPCNN.Cnn.Proof.MachineNetwork
import PPCNN.Cnn.SamePadding
import PPCNN.Cnn.LevelsSaved
import PPCNN.Cnn.QueryData
import PPCNN.Client.DeleteKeys
import PPCNN.Client.ResultThread
import PPCNN.Server.Arrival
import PPCNN.Share.ConcurrentPush
import PPCNN.Lib.TextStream
import PPCNN.Share.ParamsText
import PPCNN.Share.ParamsRunOn
import PPCNN.Lib.Runs
import PPCNN.Share.Config
import PPCNN.Lib.BigEndian
import PPCNN.Share.Mnist
import PPCNN.Share.LoadDataset
import PPCNN.Cnn.EvaluatorHom
import PPCNN.Cnn.Compute
import PPCNN.Client.Accuracy
import PPCNN.Client.Batch
import PPCNN.Client.DemoRun
import PPCNN.Client.TestSet
import PPCNN.Lib.Strtod
import PPCNN.Cnn.Picojson
import PPCNN.Cnn.PicojsonGrammar
import PPCNN.Cnn.StructureText
import PPCNN.Cnn.PicojsonErrors
import PPCNN.Cnn.BuildLoop
import PPCNN.Server.Building
import PPCNN.Server.Predictions
import PPCNN.Cnn.Assignment
import PPCNN.Server.OneThread
